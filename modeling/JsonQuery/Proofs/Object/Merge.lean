import JsonQuery.Proofs.Keyed.Order
import JsonQuery.Proofs.Order.Derived

/-!
Merging objects. The value of a key is that of the last object with the key, while its place is that in
which it first appears; so merging is associative, and the first argument that is no object is what it
fails at.
-/
namespace JsonQuery

namespace Function

variable {args : List Value} {v : Value}

def firstOther (args : List Value) : Option Value := args.find? (·.object?.isNone)

theorem mapM_mergeMembers_objects (objects : List (List (String × Value))) :
    (objects.map Value.object).mapM mergeMembers = .ok objects := by
  induction objects with
  | nil => rfl
  | cons members rest ih =>
    rw [List.map_cons, List.mapM_cons, ih]
    rfl

theorem mapM_mergeMembers_of_other (other : firstOther args = some v) :
    args.mapM mergeMembers = .error (.type (.noMergeObject v.kind)) := by
  induction args with
  | nil => cases other
  | cons first rest ih =>
    rw [firstOther, List.find?_cons] at other
    rw [List.mapM_cons, mergeMembers]
    cases object : first.object? with
    | none =>
      rw [object] at other
      cases other
      rfl
    | some members =>
      rw [object] at other
      rw [ih other]
      rfl

theorem exists_objects (none : firstOther args = none) :
    ∃ objects : List (List (String × Value)), args = objects.map .object := by
  induction args with
  | nil => exact ⟨[], rfl⟩
  | cons first rest ih =>
    rw [firstOther, List.find?_cons] at none
    cases first with
    | object members =>
      obtain ⟨objects, same⟩ := ih none
      exact ⟨members :: objects, congrArg _ same⟩
    | _ => cases none

theorem merge_any (args : List Value) :
    merge (args.map .any) = (args.mapM mergeMembers).map fun objects => .object (Keyed.union objects) := by
  rw [merge, List.mapM_map]
  rfl

end Function

namespace Evaluator

open JsonQuery.Function

variable {ev : Evaluator} {args : List Value}

def Merges (ev : Evaluator) (objects : List (List (String × Value))) (merged : List (String × Value)) : Prop :=
  ev.Returns .merge (objects.map .object) (.ok (.object merged))

section Calls

variable (builtin : ev.registry.get? Builtin.merge.name = none)
include builtin

theorem returns_merge (some : args ≠ []) :
    ev.Returns .merge args ((args.mapM mergeMembers).map fun objects => .object (Keyed.union objects)) := by
  rw [← merge_any]
  exact returns_plain builtin rfl (Parameter.resolve_rest some)

theorem merges_union {objects : List (List (String × Value))} (some : objects ≠ []) :
    ev.Merges objects (Keyed.union objects) := by
  have merged := returns_merge builtin (mt List.map_eq_nil_iff.1 some : objects.map Value.object ≠ [])
  rwa [mapM_mergeMembers_objects] at merged

theorem returns_merge_error_iff (some : args ≠ []) {fault : Fault} :
    ev.Returns .merge args (.error fault) ↔
      ∃ v ∈ firstOther args, fault = .type (.noMergeObject v.kind) := by
  have merged := returns_merge builtin some
  cases other : firstOther args with
  | none =>
    obtain ⟨objects, rfl⟩ := exists_objects other
    rw [mapM_mergeMembers_objects] at merged
    refine iff_of_false (fun failed => ?_) nofun
    cases failed.unique merged
  | some v =>
    rw [mapM_mergeMembers_of_other other] at merged
    constructor
    · intro failed
      cases failed.unique merged
      exact ⟨v, rfl, rfl⟩
    · rintro ⟨_, same, rfl⟩
      cases same
      exact merged

end Calls

/-- `merge` fails exactly if an argument is no object, wherever it stands, and names the kind of the
first one. On objects it gives the keys in the order of their first appearance, each with the value that
the last object with the key has for it. It is associative, and neither an object with itself nor with an
empty one gives anything new. -/
theorem merge_rightBiased (builtin : ev.registry.get? Builtin.merge.name = none) :
    (∀ args, args ≠ [] → ∀ fault, ev.Returns .merge args (.error fault) ↔
      ∃ v ∈ args.find? (·.object?.isNone), fault = .type (.noMergeObject v.kind)) ∧
    (∀ objects, objects ≠ [] → (∀ members ∈ objects, (Keyed.keys members).Nodup) →
      ∃ merged, ev.Merges objects merged ∧ Keyed.keys merged = (objects.flatMap Keyed.keys).eraseDups ∧
        ∀ key, Keyed.get? key merged = (objects.filterMap (Keyed.get? key)).getLast?) ∧
    ∀ a b c, (Keyed.keys a).Nodup → (Keyed.keys b).Nodup → (Keyed.keys c).Nodup →
      (∃ ab bc abc, ev.Merges [a, b] ab ∧ ev.Merges [b, c] bc ∧
        ev.Merges [a, b, c] abc ∧ ev.Merges [ab, c] abc ∧ ev.Merges [a, bc] abc) ∧
      ev.Merges [a, a] a ∧ ev.Merges [a, []] a ∧ ev.Merges [[], a] a := by
  refine ⟨fun args some fault => returns_merge_error_iff builtin some,
    fun objects some maps => ⟨_, merges_union builtin some, Keyed.keys_union objects, fun key => ?_⟩,
    fun a b c left middle right => ?_⟩
  · exact Keyed.get?_union key maps
  · have merges (first : List (String × Value)) (rest : List (List (String × Value))) {merged}
        (union : Keyed.union (first :: rest) = merged) : ev.Merges (first :: rest) merged :=
      union ▸ merges_union builtin (List.cons_ne_nil first rest)
    have pair (ms ns : List (String × Value)) (distinct : (Keyed.keys ms).Nodup) :
        Keyed.union [ms, ns] = Keyed.insertAll ms ns :=
      congrArg (Keyed.insertAll · ns) (Keyed.ofList_of_nodup distinct)
    refine ⟨⟨Keyed.insertAll a b, Keyed.insertAll b c, Keyed.insertAll (Keyed.insertAll a b) c, ?_, ?_, ?_, ?_, ?_⟩,
      ?_, ?_, ?_⟩
    · exact merges a [b] (pair a b left)
    · exact merges b [c] (pair b c middle)
    · refine merges a [b, c] ?_
      rw [← pair a b left]
      rfl
    · exact merges _ [c] (pair _ c (Keyed.nodup_keys_insertAll left b))
    · refine merges a [_] ?_
      rw [pair a _ left, Keyed.insertAll_assoc left middle right]
    · refine merges a [a] ?_
      rw [pair a a left, Keyed.insertAll_self left]
    · exact merges a [[]] (pair a [] left)
    · exact merges [] [a] (Keyed.ofList_of_nodup left)

/-- An entry of a catalogue, and two later states of it. -/
def entry : List (String × Value) := [("title", .string "Ein Buch"), ("stock", .string "3")]

def restocked : List (String × Value) := [("shelf", .array []), ("stock", .string "5")]

def moved : List (String × Value) := [("stock", .string "4"), ("shelf", .null), ("title", .string "Ein Buch")]

theorem merge_editions :
    Returns {} .merge [.object entry, .null, .array []] (.error (.type (.noMergeObject .null))) ∧
    (∃ merged, Merges {} [entry, restocked, moved] merged ∧ Keyed.keys merged = ["title", "stock", "shelf"] ∧
      Keyed.get? "stock" merged = some (.string "4") ∧ Keyed.get? "shelf" merged = some .null) ∧
    (∃ early late all, Merges {} [entry, restocked] early ∧ Merges {} [restocked, moved] late ∧
      Merges {} [entry, restocked, moved] all ∧ Merges {} [early, moved] all ∧ Merges {} [entry, late] all) ∧
    Merges {} [entry, entry] entry ∧ Merges {} [entry, []] entry ∧ Merges {} [[], entry] entry := by
  obtain ⟨fails, merges, laws⟩ := @merge_rightBiased {} rfl
  have distinct : ∀ members ∈ [entry, restocked, moved], (Keyed.keys members).Nodup := by decide
  refine ⟨(fails _ (by simp) _).2 ⟨.null, rfl, rfl⟩, ?_, laws entry restocked moved ?_ ?_ ?_⟩
  · obtain ⟨merged, result, keys, last⟩ := merges [entry, restocked, moved] (by simp) distinct
    exact ⟨merged, result, keys, last "stock", last "shelf"⟩
  · exact distinct _ (by simp)
  · exact distinct _ (by simp)
  · exact distinct _ (by simp)

end Evaluator

end JsonQuery

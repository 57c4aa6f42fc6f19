import JsonQuery.Proofs.Document.Constant
import JsonQuery.Proofs.Number.Equality

/-!
Whatever the spelling, a constant is read well formed, and its document nests no deeper than the one it was
read from may.
-/
namespace JsonQuery

theorem exists_of_mem_mapM {α β : Type} {f : α → Option β} {xs : List α} {ys : List β}
    (h : xs.mapM f = some ys) {y : β} (there : y ∈ ys) : ∃ x ∈ xs, f x = some y := by
  induction xs generalizing ys with
  | nil =>
    cases h
    cases there
  | cons x rest ih =>
    rw [List.mapM_cons] at h
    obtain ⟨first, head, h⟩ := Option.bind_eq_some_iff.1 h
    obtain ⟨more, tail, h⟩ := Option.bind_eq_some_iff.1 h
    cases h
    rcases List.mem_cons.1 there with here | there
    · exact ⟨x, List.mem_cons_self, by rw [here, head]⟩
    · obtain ⟨z, among, read⟩ := ih tail there
      exact ⟨z, List.mem_cons_of_mem x among, read⟩

theorem mapM_of_forall {α β : Type} {f : α → Option β} {g : α → β} {xs : List α}
    (h : ∀ x ∈ xs, f x = some (g x)) : xs.mapM f = some (xs.map g) := by
  induction xs with
  | nil => rfl
  | cons x rest ih =>
    rw [List.forall_mem_cons] at h
    rw [List.mapM_cons, h.1, ih h.2]
    rfl

namespace Numeral

theorem finite?_eq_some {d : Double} {m : Meaning} (h : finite? d = some m) :
    d.isFinite = true ∧ m = .double d := by
  unfold finite? at h
  split at h
  · next finite =>
    cases h
    exact ⟨finite, rfl⟩
  · cases h

theorem isWord_of_word? {n : Numeral} {k : Int} (h : n.word? = some k) : Number.IsWord k := by
  unfold word? at h
  split at h
  · cases h
  · cases h
  · dsimp only at h
    split at h
    · next word =>
      cases h
      exact word
    · cases h

theorem meaning?_cases {r : Reading} {n : Numeral} {m : Meaning} (h : n.meaning? r = some m) :
    (∃ k, m = .integer k ∧ Number.IsWord k) ∨ ∃ d, m = .double d ∧ d.isFinite = true := by
  unfold meaning? at h
  split at h
  · next word =>
    cases h
    exact .inl ⟨_, rfl, isWord_of_word? word⟩
  · cases h
    exact .inr ⟨_, rfl, rfl⟩
  · have double := finite?_eq_some h
    exact .inr ⟨_, double.2, double.1⟩
  · have double := finite?_eq_some h
    exact .inr ⟨_, double.2, double.1⟩

end Numeral

namespace Literal

theorem listToJson_eq_map (items : List Literal) : listToJson items = items.map toJson := by
  induction items with
  | nil => rfl
  | cons item rest ih => rw [listToJson, ih, List.map_cons]

theorem membersToJson_eq_map (members : List (String × Literal)) :
    membersToJson members = members.map fun m => (Json.Quoted.ofString m.1, m.2.toJson) := by
  induction members with
  | nil => rfl
  | cons member rest ih =>
    obtain ⟨key, value⟩ := member
    rw [membersToJson, ih, List.map_cons]

theorem depth_jsonOfDouble (d : Double) : (jsonOfDouble d).depth = 0 := by
  unfold jsonOfDouble
  split <;> rfl

variable {r : Reading}

theorem formed_of_ofNumeral? {n : Numeral} {l : Literal} (h : ofNumeral? r n = some l) :
    l.WellFormed ∧ l.toJson.depth = 0 := by
  obtain ⟨m, meaning, h⟩ := Option.map_eq_some_iff.1 h
  rcases Numeral.meaning?_cases meaning with ⟨k, rfl, word⟩ | ⟨d, rfl, finite⟩
  · cases h
    exact ⟨word, rfl⟩
  · cases h
    exact ⟨finite, depth_jsonOfDouble d⟩

theorem formed_ofList {nesting : Nat} {entries : List (String × Literal)}
    (h : ∀ m ∈ entries, m.2.WellFormed ∧ m.2.toJson.depth ≤ nesting) :
    (object (Keyed.ofList entries)).WellFormed ∧
      (object (Keyed.ofList entries)).toJson.depth ≤ nesting + 1 := by
  constructor
  · apply And.intro (Keyed.nodup_keys_ofList entries)
    exact membersWellFormed_iff.2 fun m there => (h m (Keyed.mem_ofList there)).1
  · apply Nat.succ_le_succ
    rw [Json.membersDepth_le_iff, membersToJson_eq_map]
    intro m there
    obtain ⟨entry, among, rfl⟩ := List.mem_map.1 there
    exact (h entry (Keyed.mem_ofList among)).2

theorem formed_array {nesting : Nat} {items : List Literal}
    (h : ∀ l ∈ items, l.WellFormed ∧ l.toJson.depth ≤ nesting) :
    (array items).WellFormed ∧ (array items).toJson.depth ≤ nesting + 1 := by
  constructor
  · exact itemsWellFormed_iff.2 fun l there => (h l there).1
  · apply Nat.succ_le_succ
    rw [Json.itemsDepth_le_iff, listToJson_eq_map]
    intro j there
    obtain ⟨l, among, rfl⟩ := List.mem_map.1 there
    exact (h l among).2

theorem formed_of_ofJson? : ∀ {nesting : Nat} {j : Json} {l : Literal},
    ofJson? r nesting j = some l → l.WellFormed ∧ l.toJson.depth ≤ nesting
  | nesting, .null, _, h | nesting, .bool _, _, h => by
    cases nesting <;> cases h <;> exact ⟨trivial, Nat.zero_le _⟩
  | nesting, .number n, l, h => by
    have read : ofNumeral? r n = some l := by cases nesting <;> exact h
    have formed := formed_of_ofNumeral? read
    exact ⟨formed.1, by omega⟩
  | nesting, .string s, l, h => by
    have read : s.read?.map string = some l := by cases nesting <;> exact h
    obtain ⟨t, _, rfl⟩ := Option.map_eq_some_iff.1 read
    exact ⟨trivial, Nat.zero_le nesting⟩
  | nesting + 1, .array items, _, h => by
    obtain ⟨ls, read, rfl⟩ := Option.map_eq_some_iff.1 h
    apply formed_array
    intro l there
    obtain ⟨j, _, item⟩ := exists_of_mem_mapM read there
    exact formed_of_ofJson? item
  | nesting + 1, .object members, _, h => by
    obtain ⟨entries, read, h⟩ := Option.bind_eq_some_iff.1 h
    cases h
    apply formed_ofList
    intro m there
    obtain ⟨member, _, read⟩ := exists_of_mem_mapM read there
    obtain ⟨key, _, read⟩ := Option.bind_eq_some_iff.1 read
    obtain ⟨value, member, read⟩ := Option.bind_eq_some_iff.1 read
    cases read
    exact formed_of_ofJson? member

section Same

theorem sameItems_self {items : List Literal} (h : ∀ l ∈ items, l.same l = true) :
    sameItems items items = true := by
  induction items with
  | nil => rfl
  | cons item rest ih =>
    rw [List.forall_mem_cons] at h
    simp [sameItems, h.1, ih h.2]

theorem sameMembers_of_get? {members others : List (String × Literal)}
    (h : ∀ m ∈ members, Keyed.get? m.1 others = some m.2 ∧ m.2.same m.2 = true) :
    sameMembers members others = true := by
  induction members with
  | nil => rfl
  | cons member rest ih =>
    obtain ⟨key, value⟩ := member
    rw [List.forall_mem_cons] at h
    simp [sameMembers, h.1, ih h.2]

theorem same_self {l : Literal} (h : l.WellFormed) : l.same l = true := by
  induction l using induction with
  | null => rfl
  | bool | integer | string => simp [same]
  | double d => exact Double.same_self h
  | array items ih =>
    apply sameItems_self
    intro l there
    exact ih l there (itemsWellFormed_iff.1 h l there)
  | object members ih =>
    rw [same, beq_self_eq_true, Bool.true_and]
    apply sameMembers_of_get?
    intro m there
    exact ⟨Keyed.get?_of_mem h.1 there, ih m there (membersWellFormed_iff.1 h.2 m there)⟩

end Same

end Literal

end JsonQuery

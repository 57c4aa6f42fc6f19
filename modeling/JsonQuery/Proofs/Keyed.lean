import JsonQuery.Keyed
import JsonQuery.Proofs.Simulation.Sequence
import Mathlib.Data.List.Nodup
import Mathlib.Data.List.Perm.Subperm

/-!
Members that are set in turn: none is there that was not set, and those under distinct keys stay as they
are. Members are looked up and set one key at a time, so what matters besides the order of the keys is what
stands under each of them.
-/
namespace JsonQuery.Keyed

variable {α : Type}

theorem mem_of_get? {key : String} {value : α} {members : List (String × α)}
    (h : get? key members = some value) : (key, value) ∈ members := by
  induction members with
  | nil => cases h
  | cons member rest ih =>
    obtain ⟨k, v⟩ := member
    rw [get?] at h
    split at h
    · next same =>
      cases h
      rw [same]
      exact .head _
    · exact .tail _ (ih h)

theorem mem_insert {key : String} {value : α} {members : List (String × α)} {m : String × α}
    (h : m ∈ insert key value members) : m = (key, value) ∨ m ∈ members := by
  induction members with
  | nil => exact .inl (List.mem_singleton.1 h)
  | cons member rest ih =>
    obtain ⟨k, v⟩ := member
    rw [insert] at h
    split at h
    · next same =>
      rcases List.mem_cons.1 h with here | there
      · exact .inl (by rw [here, same])
      · exact .inr (.tail _ there)
    · rcases List.mem_cons.1 h with here | there
      · exact .inr (by rw [here]; exact .head _)
      · exact (ih there).imp_right (.tail _)

theorem mem_insertAll {members entries : List (String × α)} {m : String × α}
    (h : m ∈ insertAll members entries) : m ∈ members ∨ m ∈ entries := by
  induction entries generalizing members with
  | nil => exact .inl h
  | cons entry rest ih =>
    rcases ih h with set | there
    · exact (mem_insert set).symm.imp_right fun same => by rw [same]; exact .head _
    · exact .inr (.tail _ there)

theorem mem_ofList {entries : List (String × α)} {m : String × α} (h : m ∈ ofList entries) :
    m ∈ entries := (mem_insertAll h).resolve_left (List.not_mem_nil)

theorem insert_of_notMem {key : String} {members : List (String × α)} (value : α)
    (h : key ∉ keys members) : insert key value members = members ++ [(key, value)] := by
  induction members with
  | nil => rfl
  | cons member rest ih =>
    obtain ⟨k, v⟩ := member
    rw [keys_cons, List.mem_cons, not_or] at h
    rw [insert, if_neg (Ne.symm h.1), ih h.2, List.cons_append]

theorem keys_append (members entries : List (String × α)) :
    keys (members ++ entries) = keys members ++ keys entries := List.map_append

theorem insertAll_of_nodup {members entries : List (String × α)}
    (h : (keys (members ++ entries)).Nodup) : insertAll members entries = members ++ entries := by
  induction entries generalizing members with
  | nil => exact (List.append_nil members).symm
  | cons entry rest ih =>
    obtain ⟨key, value⟩ := entry
    have absent : key ∉ keys members := by
      rw [keys_append, keys_cons, List.nodup_append] at h
      exact fun there => h.2.2 key there key (.head _) rfl
    calc insertAll members ((key, value) :: rest)
        = insertAll (members ++ [(key, value)]) rest := by
          rw [← insert_of_notMem value absent]
          rfl
      _ = members ++ [(key, value)] ++ rest := ih (by rwa [List.append_assoc])
      _ = members ++ (key, value) :: rest := List.append_assoc members _ rest

theorem ofList_of_nodup {entries : List (String × α)} (h : (keys entries).Nodup) :
    ofList entries = entries := insertAll_of_nodup h

theorem get?_of_mem {key : String} {value : α} {members : List (String × α)}
    (distinct : (keys members).Nodup) (h : (key, value) ∈ members) :
    get? key members = some value := by
  induction members with
  | nil => cases h
  | cons member rest ih =>
    obtain ⟨k, v⟩ := member
    rw [keys_cons, List.nodup_cons] at distinct
    rcases List.mem_cons.1 h with here | there
    · cases here
      rw [get?, if_pos rfl]
    · have other : k ≠ key := by
        rintro rfl
        exact distinct.1 (List.mem_map_of_mem there)
      rw [get?, if_neg other, ih distinct.2 there]

theorem mem_keys_iff {key : String} {members : List (String × α)} :
    key ∈ keys members ↔ (get? key members).isSome = true := by
  induction members with
  | nil => simp [get?]
  | cons member rest ih =>
    rw [keys_cons, List.mem_cons, get?, ih]
    by_cases same : member.1 = key
    · simp [same]
    · simp [same, Ne.symm same]

/-- Since keys are distinct, it is enough to look up the members of one side on the other, if there are
as many on both sides. -/
theorem rel_get?_iff {β : Type} {R : α → β → Prop} {ms : List (String × α)} {ns : List (String × β)}
    (left : (keys ms).Nodup) (right : (keys ns).Nodup) :
    (ms.length = ns.length ∧ ∀ m ∈ ms, ∃ v, get? m.1 ns = some v ∧ R m.2 v) ↔
      ∀ key, Option.Rel R (get? key ms) (get? key ns) := by
  constructor
  · rintro ⟨size, found⟩ key
    have sub : keys ms ⊆ keys ns := by
      intro key there
      obtain ⟨m, member, rfl⟩ := List.mem_map.1 there
      obtain ⟨v, value, _⟩ := found m member
      rw [mem_keys_iff, value]
      rfl
    have perm : (keys ms).Perm (keys ns) :=
      (List.Nodup.subperm left sub).perm_of_length_le (by simp [keys, size])
    cases here : get? key ms with
    | some u =>
      obtain ⟨v, value, related⟩ := found _ (mem_of_get? here)
      rw [value]
      exact .some related
    | none =>
      have absent : key ∉ keys ns := by rw [← perm.mem_iff, mem_keys_iff, here]; simp
      rw [mem_keys_iff, Option.not_isSome_iff_eq_none] at absent
      rw [absent]
      exact .none
  · intro h
    have perm : (keys ms).Perm (keys ns) := by
      rw [List.perm_ext_iff_of_nodup left right]
      intro key
      rw [mem_keys_iff, mem_keys_iff]
      rcases rel_cases (h key) with ⟨here, there⟩ | ⟨_, _, here, there, _⟩ <;> rw [here, there] <;> rfl
    refine ⟨by simpa [keys] using perm.length_eq, fun m there => ?_⟩
    have here := get?_of_mem left there
    rcases rel_cases (h m.1) with ⟨none, _⟩ | ⟨_, v, same, value, related⟩
    · cases here.symm.trans none
    · cases here.symm.trans same
      exact ⟨v, value, related⟩

section Map

variable {β : Type} (f : α → β)

theorem keys_map (members : List (String × α)) :
    keys (members.map fun member => (member.1, f member.2)) = keys members := by
  rw [keys, keys, List.map_map]
  rfl

theorem get?_map (key : String) (members : List (String × α)) :
    get? key (members.map fun member => (member.1, f member.2)) = (get? key members).map f := by
  induction members with
  | nil => rfl
  | cons member rest ih =>
    rw [List.map_cons, get?, get?, ih]
    split <;> rfl

theorem insert_map (key : String) (value : α) (members : List (String × α)) :
    insert key (f value) (members.map fun member => (member.1, f member.2)) =
      (insert key value members).map fun member => (member.1, f member.2) := by
  induction members with
  | nil => rfl
  | cons member rest ih =>
    rw [List.map_cons, insert, insert, ih]
    split <;> rfl

theorem insertAll_map (members entries : List (String × α)) :
    insertAll (members.map fun member => (member.1, f member.2))
        (entries.map fun entry => (entry.1, f entry.2)) =
      (insertAll members entries).map fun member => (member.1, f member.2) := by
  induction entries generalizing members with
  | nil => rfl
  | cons entry rest ih =>
    rw [List.map_cons, insertAll, List.foldl_cons]
    dsimp only
    rw [insert_map]
    exact ih (insert entry.1 entry.2 members)

theorem ofList_map (entries : List (String × α)) :
    ofList (entries.map fun entry => (entry.1, f entry.2)) =
      (ofList entries).map fun entry => (entry.1, f entry.2) := insertAll_map f [] entries

end Map

/-- All values that stand under a key, the first of which is the one that is looked up. -/
def under (key : String) : List (String × α) → List α
  | [] => []
  | (k, v) :: rest => if k = key then v :: under key rest else under key rest

section Under

theorem get?_eq_head? (key : String) (members : List (String × α)) :
    get? key members = (under key members).head? := by
  induction members with
  | nil => rfl
  | cons member rest ih =>
    rw [get?, under, ih]
    split <;> rfl

theorem length_under (key : String) (members : List (String × α)) :
    (under key members).length = (keys members).count key := by
  induction members with
  | nil => rfl
  | cons member rest ih =>
    rw [under, keys_cons, List.count_cons, ← ih]
    by_cases same : member.1 = key <;> simp [same]

theorem under_of_nodup {key : String} {members : List (String × α)} (distinct : (keys members).Nodup) :
    under key members = (get? key members).toList := by
  have few := List.nodup_iff_count_le_one.1 distinct key
  rw [get?_eq_head?]
  rw [← length_under] at few
  match under key members, few with
  | [], _ => rfl
  | [_], _ => rfl

theorem mem_under {key : String} {value : α} {members : List (String × α)} :
    value ∈ under key members ↔ (key, value) ∈ members := by
  induction members with
  | nil => simp [under]
  | cons member rest ih =>
    obtain ⟨k, v⟩ := member
    rw [under, List.mem_cons, Prod.mk.injEq, ← ih]
    by_cases same : k = key
    · rw [if_pos same, List.mem_cons, and_iff_right same.symm]
    · rw [if_neg same, or_iff_right fun here => same here.1.symm]

theorem under_insert_self (key : String) (value : α) (members : List (String × α)) :
    under key (insert key value members) = value :: (under key members).tail := by
  induction members with
  | nil => simp [insert, under]
  | cons member rest ih => by_cases same : member.1 = key <;> simp [insert, under, same, ih]

theorem under_insert_of_ne {key other : String} (h : other ≠ key) (value : α)
    (members : List (String × α)) : under other (insert key value members) = under other members := by
  induction members with
  | nil => simp [insert, under, Ne.symm h]
  | cons member rest ih =>
    by_cases same : member.1 = key
    · simp [insert, under, same, Ne.symm h]
    · simp [insert, under, same, ih]

theorem under_insertAll (key : String) (members entries : List (String × α)) :
    under key (insertAll members entries) =
      match (under key entries).getLast? with
      | some value => value :: (under key members).tail
      | none => under key members := by
  induction entries generalizing members with
  | nil => rfl
  | cons entry rest ih =>
    refine (ih _).trans ?_
    obtain ⟨k, v⟩ := entry
    rw [under]
    by_cases same : k = key
    · subst same
      rw [under_insert_self, if_pos rfl, List.getLast?_cons]
      cases (under k rest).getLast? <;> rfl
    · rw [under_insert_of_ne (Ne.symm same), if_neg same]

theorem keys_insertAll {ms ns es fs : List (String × α)} (members : keys ms = keys ns)
    (entries : keys es = keys fs) : keys (insertAll ms es) = keys (insertAll ns fs) := by
  induction es generalizing ms ns fs with
  | nil =>
    rw [List.map_eq_nil_iff.1 entries.symm]
    exact members
  | cons entry es ih =>
    obtain ⟨f, fs, rfl, head, tail⟩ := List.map_eq_cons_iff.1 entries.symm
    have set : keys (insert entry.1 entry.2 ms) = keys (insert f.1 f.2 ns) := by
      rw [keys_insert, keys_insert, members, head]
    have rest := ih set tail.symm
    exact rest

variable {R : α → α → Prop} {ms ns : List (String × α)}

theorem get?_rel (key : String) (h : List.Forall₂ R (under key ms) (under key ns)) :
    Option.Rel R (get? key ms) (get? key ns) := by
  rw [get?_eq_head?, get?_eq_head?]
  exact rel_head? h

theorem length_eq_of_under (h : ∀ key, List.Forall₂ R (under key ms) (under key ns)) :
    ms.length = ns.length := by
  have perm : (keys ms).Perm (keys ns) := List.perm_iff_count.2 fun key => by
    rw [← length_under, ← length_under, (h key).length_eq]
  simpa [keys] using perm.length_eq

theorem under_insert_rel (key : String) {v w : α} (value : R v w)
    (h : ∀ key, List.Forall₂ R (under key ms) (under key ns)) (other : String) :
    List.Forall₂ R (under other (insert key v ms)) (under other (insert key w ns)) := by
  by_cases same : other = key
  · subst same
    rw [under_insert_self, under_insert_self]
    exact .cons value (rel_tail (h other))
  · rw [under_insert_of_ne same, under_insert_of_ne same]
    exact h other

theorem under_insertAll_rel {es fs : List (String × α)}
    (h : ∀ key, List.Forall₂ R (under key ms) (under key ns))
    (new : ∀ key, List.Forall₂ R (under key es) (under key fs)) (key : String) :
    List.Forall₂ R (under key (insertAll ms es)) (under key (insertAll ns fs)) := by
  have last : Option.Rel R (under key es).getLast? (under key fs).getLast? := by
    rw [List.getLast?_eq_head?_reverse, List.getLast?_eq_head?_reverse]
    exact rel_head? (List.rel_reverse (new key))
  rw [under_insertAll, under_insertAll]
  rcases rel_cases last with ⟨left, right⟩ | ⟨v, w, left, right, value⟩ <;> rw [left, right]
  · exact h key
  · exact .cons value (rel_tail (h key))

theorem forall₂_of_under (order : keys ms = keys ns)
    (h : ∀ key, List.Forall₂ R (under key ms) (under key ns)) :
    List.Forall₂ (fun a b => a.1 = b.1 ∧ R a.2 b.2) ms ns := by
  induction ms generalizing ns with
  | nil =>
    rw [List.map_eq_nil_iff.1 order.symm]
    exact .nil
  | cons m ms ih =>
    obtain ⟨n, ns, rfl, head, tail⟩ := List.map_eq_cons_iff.1 order.symm
    obtain ⟨key, v⟩ := m
    obtain ⟨_, w⟩ := n
    cases head
    have first := h key
    rw [under, under, if_pos rfl, if_pos rfl, List.forall₂_cons] at first
    refine .cons ⟨rfl, first.1⟩ (ih tail.symm fun other => ?_)
    by_cases same : key = other
    · exact same ▸ first.2
    · have rest := h other
      rwa [under, under, if_neg same, if_neg same] at rest

theorem forall₂_under_iff (left : (keys ms).Nodup) (right : (keys ns).Nodup) (key : String) :
    List.Forall₂ R (under key ms) (under key ns) ↔ Option.Rel R (get? key ms) (get? key ns) := by
  rw [under_of_nodup left, under_of_nodup right]
  cases get? key ms <;> cases get? key ns <;> simp

end Under

end JsonQuery.Keyed

import JsonQuery.Proofs.Keyed
import Mathlib.Data.List.Induction

/-!
The order of members. Whatever is set under them later, keys stand in the order in which they first
appear; and members under distinct keys are determined by the order of the keys and by what is looked up
under each of them.
-/
namespace JsonQuery

section Appearance

variable {xs : List String}

theorem eraseDups_append_singleton (x : String) (xs : List String) :
    (xs ++ [x]).eraseDups = if x ∈ xs then xs.eraseDups else xs.eraseDups ++ [x] := by
  rw [List.eraseDups_append]
  split <;> simp [List.removeAll, List.eraseDups_cons, *]

theorem eraseDups_of_nodup (h : xs.Nodup) : xs.eraseDups = xs := by
  induction xs using List.reverseRecOn with
  | nil => rfl
  | append_singleton xs x ih =>
    rw [List.nodup_append] at h
    have new : x ∉ xs := fun there => h.2.2 x there x (.head _) rfl
    rw [eraseDups_append_singleton, if_neg new, ih h.1]

theorem nodup_eraseDups (xs : List String) : xs.eraseDups.Nodup := by
  induction xs using List.reverseRecOn with
  | nil => exact .nil
  | append_singleton xs x ih =>
    rw [eraseDups_append_singleton]
    split
    · exact ih
    · next new =>
      rw [← List.concat_eq_append]
      exact ih.concat (mt List.mem_eraseDups.1 new)

theorem eraseDups_eraseDups_append (xs ys : List String) :
    (xs.eraseDups ++ ys).eraseDups = (xs ++ ys).eraseDups := by
  induction ys using List.reverseRecOn with
  | nil => simp only [List.append_nil, eraseDups_of_nodup (nodup_eraseDups xs)]
  | append_singleton ys y ih =>
    rw [← List.append_assoc, ← List.append_assoc, eraseDups_append_singleton, eraseDups_append_singleton, ih]
    simp only [List.mem_append, List.mem_eraseDups]

theorem eraseDups_append_eraseDups (xs ys : List String) :
    (xs ++ ys.eraseDups).eraseDups = (xs ++ ys).eraseDups := by
  induction ys using List.reverseRecOn with
  | nil => rfl
  | append_singleton ys y ih =>
    rw [← List.append_assoc, eraseDups_append_singleton y ys, eraseDups_append_singleton y (xs ++ ys)]
    by_cases old : y ∈ ys
    · rw [if_pos old, if_pos (List.mem_append_right xs old), ih]
    · rw [if_neg old, ← List.append_assoc, eraseDups_append_singleton, ih]
      simp only [List.mem_append, List.mem_eraseDups]

end Appearance

namespace Keyed

variable {α : Type}

theorem keys_insert_of_nodup (key : String) (value : α) {members : List (String × α)}
    (distinct : (keys members).Nodup) :
    keys (insert key value members) = (keys members ++ [key]).eraseDups := by
  rw [keys_insert, eraseDups_append_singleton, eraseDups_of_nodup distinct]

theorem keys_insertAll_of_nodup {members : List (String × α)} (distinct : (keys members).Nodup)
    (entries : List (String × α)) :
    keys (insertAll members entries) = (keys members ++ keys entries).eraseDups := by
  induction entries generalizing members with
  | nil => simp only [keys_nil, List.append_nil, eraseDups_of_nodup distinct, insertAll, List.foldl_nil]
  | cons entry rest ih =>
    obtain ⟨key, value⟩ := entry
    calc keys (insertAll members ((key, value) :: rest))
        = (keys (insert key value members) ++ keys rest).eraseDups := ih (nodup_keys_insert key value distinct)
      _ = ((keys members ++ [key]) ++ keys rest).eraseDups := by
        rw [keys_insert_of_nodup key value distinct, eraseDups_eraseDups_append]
      _ = (keys members ++ keys ((key, value) :: rest)).eraseDups := by
        rw [List.append_assoc, keys_cons, List.singleton_append]

theorem get?_insertAll (key : String) (members entries : List (String × α)) :
    get? key (insertAll members entries) = (under key entries).getLast?.or (get? key members) := by
  rw [get?_eq_head?, under_insertAll]
  cases (under key entries).getLast? with
  | none => rw [Option.none_or, get?_eq_head?]
  | some => rfl

theorem get?_insertAll_of_nodup (key : String) (members : List (String × α)) {entries : List (String × α)}
    (distinct : (keys entries).Nodup) :
    get? key (insertAll members entries) = (get? key entries).or (get? key members) := by
  rw [get?_insertAll, under_of_nodup distinct]
  cases get? key entries <;> rfl

theorem eq_of_get? {ms ns : List (String × α)} (distinct : (keys ms).Nodup) (order : keys ms = keys ns)
    (same : ∀ key, get? key ms = get? key ns) : ms = ns := by
  refine List.forall₂_eq_eq_eq ▸ (forall₂_of_under order fun key => ?_).imp fun m n equal => Prod.ext equal.1 equal.2
  rw [under_of_nodup distinct, under_of_nodup (order ▸ distinct), same key]
  exact List.forall₂_same.2 fun _ _ => rfl

variable {ms es fs : List (String × α)}

theorem insertAll_assoc (members : (keys ms).Nodup) (entries : (keys es).Nodup) (later : (keys fs).Nodup) :
    insertAll (insertAll ms es) fs = insertAll ms (insertAll es fs) := by
  refine eq_of_get? (nodup_keys_insertAll (nodup_keys_insertAll members es) fs) ?_ fun key => ?_
  · rw [keys_insertAll_of_nodup (nodup_keys_insertAll members es), keys_insertAll_of_nodup members,
      keys_insertAll_of_nodup members, keys_insertAll_of_nodup entries, eraseDups_eraseDups_append,
      eraseDups_append_eraseDups, List.append_assoc]
  · rw [get?_insertAll_of_nodup key _ later, get?_insertAll_of_nodup key _ entries,
      get?_insertAll_of_nodup key _ (nodup_keys_insertAll entries fs), get?_insertAll_of_nodup key _ later,
      Option.or_assoc]

theorem insertAll_self (members : (keys ms).Nodup) : insertAll ms ms = ms := by
  refine eq_of_get? (nodup_keys_insertAll members ms) ?_ fun key => ?_
  · have nothing : (keys ms).removeAll (keys ms) = [] := by simp [List.removeAll]
    rw [keys_insertAll_of_nodup members, List.eraseDups_append, nothing, eraseDups_of_nodup members]
    exact List.append_nil _
  · rw [get?_insertAll_of_nodup key _ members, Option.or_self]

def union (maps : List (List (String × α))) : List (String × α) := maps.foldl insertAll []

theorem union_append_singleton (maps : List (List (String × α))) (members : List (String × α)) :
    union (maps ++ [members]) = insertAll (union maps) members := List.foldl_append

theorem nodup_keys_union (maps : List (List (String × α))) : (keys (union maps)).Nodup := by
  induction maps using List.reverseRecOn with
  | nil => exact .nil
  | append_singleton maps members ih =>
    rw [union_append_singleton]
    exact nodup_keys_insertAll ih members

theorem keys_union (maps : List (List (String × α))) :
    keys (union maps) = (maps.flatMap keys).eraseDups := by
  induction maps using List.reverseRecOn with
  | nil => rfl
  | append_singleton maps members ih =>
    rw [union_append_singleton, keys_insertAll_of_nodup (nodup_keys_union maps), ih, eraseDups_eraseDups_append,
      List.flatMap_append, List.flatMap_singleton]

/-- The last map with a key decides its value. -/
theorem get?_union (key : String) {maps : List (List (String × α))} (each : ∀ ms ∈ maps, (keys ms).Nodup) :
    get? key (union maps) = (maps.filterMap (get? key)).getLast? := by
  induction maps using List.reverseRecOn with
  | nil => rfl
  | append_singleton maps members ih =>
    have last : ([members].filterMap (get? key)).getLast? = get? key members := by
      cases found : get? key members <;> simp [found]
    rw [union_append_singleton, get?_insertAll_of_nodup key _ (each members (by simp)),
      ih fun ms there => each ms (by simp [there]), List.filterMap_append, List.getLast?_append, last]

end Keyed

end JsonQuery

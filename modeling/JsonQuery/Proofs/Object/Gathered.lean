import JsonQuery.Proofs.Keyed.Order
import JsonQuery.Proofs.Order.Derived
import JsonQuery.Proofs.Simulation.Plain

/-!
Objects from entries. The keys of the object are those of the entries in the order of their first
appearance, and under each stand the values of all its entries. A list that is the only value of the
first entry for a key is not told apart from a list that entries have made: where another entry follows,
the values join those in the list.
-/
namespace JsonQuery

/-- A single value as it is, and any other number of values as an array. -/
def Value.ofValues : List Value → Value
  | [v] => v
  | vs => .array vs

namespace Function

variable {entry : Value} {entries : List Value} {members : List (String × Value)} {key : String}
  {contributions : List (String × List Value)} {values : List Value} {groups : List (List Value)}

/-- Whether a value is a list of values of which the first one, if there is one, has a text to be a key. -/
def IsEntry (entry : Value) : Prop :=
  ∃ row, entry.sequence? = some row ∧ ∀ head ∈ row.head?, ∃ key, canonicalText head = .ok key

/-- The key of an entry and its values, null if it has none; an empty entry has no key. -/
def contribution? (entry : Value) : Option (String × List Value) :=
  match entry.sequence? with
  | some (head :: values) =>
    (canonicalText head).toOption.map (·, if values.isEmpty then [.null] else values)
  | _ => none

def gather (members : List (String × Value)) (contribution : String × List Value) : List (String × Value) :=
  Keyed.insert contribution.1 (collect contribution.2 (Keyed.get? contribution.1 members)) members

/-- What the values of the entries for a key, added one entry after the other, come to. -/
def held (groups : List (List Value)) : Option Value :=
  groups.foldl (fun current values => some (collect values current)) none

/-- Whether the first of several entries for a key has a list as its only value. -/
def Opens (groups : List (List Value)) : Prop :=
  ∃ items rest, groups = [.array items] :: rest ∧ rest ≠ []

section Entries

theorem isEntry_nil : IsEntry (.array []) := ⟨[], rfl, nofun⟩

theorem isEntry_cons {head : Value} (text : canonicalText head = .ok key) (values : List Value) :
    IsEntry (.array (head :: values)) :=
  ⟨head :: values, rfl, fun | _, rfl => ⟨key, text⟩⟩

theorem addEntry_of_isEntry (h : IsEntry entry) (members : List (String × Value)) :
    addEntry members entry = .ok ((contribution? entry).toList.foldl gather members) := by
  obtain ⟨row, sequence, text⟩ := h
  rw [addEntry, contribution?, sequence]
  cases row with
  | nil => rfl
  | cons head values =>
    obtain ⟨key, named⟩ := text head rfl
    dsimp only
    rw [named]
    rfl

theorem foldlM_addEntry (each : ∀ entry ∈ entries, IsEntry entry) (members : List (String × Value)) :
    entries.foldlM addEntry members = .ok ((entries.filterMap contribution?).foldl gather members) := by
  induction entries generalizing members with
  | nil => rfl
  | cons entry rest ih =>
    rw [List.foldlM_cons, addEntry_of_isEntry (each entry (.head _))]
    refine (ih (fun e there => each e (.tail _ there)) _).trans ?_
    rw [List.filterMap_cons]
    cases contribution? entry <;> rfl

theorem ne_nil_of_contribution? {contribution : String × List Value}
    (h : contribution? entry = some contribution) : contribution.2 ≠ [] := by
  unfold contribution? at h
  split at h
  · obtain ⟨key, -, rfl⟩ := Option.map_eq_some_iff.1 h
    dsimp only
    split
    · exact List.cons_ne_nil _ _
    · next some => exact fun none => some (List.isEmpty_iff.2 none)
  · cases h

end Entries

section Fold

theorem held_append_singleton (groups : List (List Value)) (values : List Value) :
    held (groups ++ [values]) = some (collect values (held groups)) := List.foldl_append

theorem under_append_singleton (key : String) (contributions : List (String × List Value))
    (contribution : String × List Value) : Keyed.under key (contributions ++ [contribution]) =
      Keyed.under key contributions ++ if contribution.1 = key then [contribution.2] else [] := by
  induction contributions with
  | nil => rfl
  | cons first rest ih =>
    rw [List.cons_append, Keyed.under, Keyed.under, ih]
    split <;> rfl

/-- Along the entries the keys stay in the order of their first appearance, each with what its values
come to. -/
theorem foldl_gather (contributions : List (String × List Value)) :
    Keyed.keys (contributions.foldl gather []) = (Keyed.keys contributions).eraseDups ∧
      ∀ key, Keyed.get? key (contributions.foldl gather []) = held (Keyed.under key contributions) := by
  induction contributions using List.reverseRecOn with
  | nil => exact ⟨rfl, fun _ => rfl⟩
  | append_singleton contributions contribution ih =>
    obtain ⟨order, values⟩ := ih
    have distinct : (Keyed.keys (contributions.foldl gather [])).Nodup := order ▸ nodup_eraseDups _
    rw [List.foldl_append, List.foldl_cons, List.foldl_nil, gather]
    refine ⟨?_, fun key => ?_⟩
    · rw [Keyed.keys_insert_of_nodup _ _ distinct, order, eraseDups_eraseDups_append, Keyed.keys_append]
      rfl
    · rw [under_append_singleton]
      by_cases same : contribution.1 = key
      · subst same
        rw [Keyed.get?_insert_self, if_pos rfl, held_append_singleton, values]
      · rw [Keyed.get?_insert_of_ne (Ne.symm same), if_neg same, List.append_nil, values]

end Fold

section Held

def listed (v : Value) : List Value := v.array?.getD [v]

theorem held_singleton (values : List Value) : held [values] = some (.ofValues values) := by
  match values with
  | [] => rfl
  | [_] => rfl
  | _ :: _ :: _ => rfl

theorem foldl_collect_array (items : List Value) (groups : List (List Value)) :
    groups.foldl (fun current values => some (collect values current)) (some (.array items)) =
      some (.array (items ++ groups.flatten)) := by
  induction groups generalizing items with
  | nil => simp
  | cons values rest ih =>
    rw [List.foldl_cons, collect, ih, List.flatten_cons, List.append_assoc]

theorem held_cons (values : List Value) {rest : List (List Value)} (some : rest ≠ []) :
    held (values :: rest) = .some (.array (listed (.ofValues values) ++ rest.flatten)) := by
  obtain ⟨second, rest, rfl⟩ := List.exists_cons_of_ne_nil some
  have first : held [values] = _ := held_singleton values
  rw [held, List.foldl_cons, List.foldl_nil] at first
  rw [held, List.foldl_cons, List.foldl_cons, first, collect_some, foldl_collect_array, List.flatten_cons,
    List.append_assoc]
  rfl

theorem listed_ofValues (h : ∀ items, values ≠ [.array items]) : listed (.ofValues values) = values := by
  match values with
  | [] => rfl
  | [v] =>
    cases v with
    | array items => exact absurd rfl (h items)
    | _ => rfl
  | _ :: _ :: _ => rfl

theorem ofValues_of_two {vs : List Value} (several : 2 ≤ vs.length) : Value.ofValues vs = .array vs := by
  match vs, several with
  | _ :: _ :: _, _ => rfl

theorem two_le_length_flatten (some : values ≠ []) {rest : List (List Value)} (more : rest ≠ [])
    (each : ∀ vs ∈ rest, vs ≠ []) : 2 ≤ (values :: rest).flatten.length := by
  obtain ⟨second, rest, rfl⟩ := List.exists_cons_of_ne_nil more
  have first := List.length_pos_iff.2 some
  have next := List.length_pos_iff.2 (each second (.head _))
  simp only [List.flatten_cons, List.length_append]
  omega

theorem append_ne_array_cons (items more : List Value) : items ++ more ≠ .array items :: more := by
  intro same
  have inside : items = [.array items] := List.append_cancel_right same
  have sizes := congrArg sizeOf inside
  simp at sizes
  omega

theorem held_eq_ofValues_iff (some : groups ≠ []) (each : ∀ values ∈ groups, values ≠ []) :
    held groups = .some (.ofValues groups.flatten) ↔ ¬ Opens groups := by
  obtain ⟨values, rest, rfl⟩ := List.exists_cons_of_ne_nil some
  rcases eq_or_ne rest [] with rfl | more
  · refine iff_of_true ?_ ?_
    · rw [held_singleton, List.flatten_singleton]
    · rintro ⟨_, _, same, more⟩
      cases same
      exact more rfl
  · have several := two_le_length_flatten (each values (.head _)) more fun vs there => each vs (.tail _ there)
    rw [held_cons values more, ofValues_of_two several, List.flatten_cons]
    constructor
    · rintro same ⟨items, _, opened, -⟩
      cases opened
      exact append_ne_array_cons items rest.flatten (Value.array.inj (Option.some.inj same))
    · intro closed
      rw [listed_ofValues fun items single => closed ⟨items, rest, by rw [single], more⟩]

end Held

end Function

namespace Evaluator

open JsonQuery.Function

variable {ev : Evaluator} {v : Value} {entries : List Value}

theorem returns_fromItems (builtin : ev.registry.get? Builtin.fromItems.name = none)
    (sequence : v.sequence? = some entries) (each : ∀ entry ∈ entries, IsEntry entry) :
    ev.Returns .fromItems [v] (.ok (.object ((entries.filterMap contribution?).foldl gather []))) := by
  have gathered := returns_plain builtin rfl (Parameter.resolve_one rfl (Parameter.check_array sequence))
  rw [Builtin.plain, fromItems, foldlM_addEntry each] at gathered
  exact gathered

/-- From an array of entries whose heads have texts, `from_items` makes an object with these texts as
keys, in the order of their first appearance. Under a key stands the single value that its entries have
together, or else the array of all their values, in order, unless the first of several entries has an
array as its only value. In this case, and in no other, the values of the other entries join the items of
that array. -/
theorem fromItems_gathers (builtin : ev.registry.get? Builtin.fromItems.name = none)
    (sequence : v.sequence? = some entries) (each : ∀ entry ∈ entries, IsEntry entry) :
    ∃ members, ev.Returns .fromItems [v] (.ok (.object members)) ∧
      Keyed.keys members = (Keyed.keys (entries.filterMap contribution?)).eraseDups ∧
      ∀ key ∈ Keyed.keys members, ∃ w ∈ Keyed.get? key members,
        let groups := Keyed.under key (entries.filterMap contribution?)
        (w = .ofValues groups.flatten ↔ ¬ Opens groups) ∧
        ∀ items rest, groups = [.array items] :: rest → rest ≠ [] → w = .array (items ++ rest.flatten) := by
  obtain ⟨order, values⟩ := foldl_gather (entries.filterMap contribution?)
  refine ⟨_, returns_fromItems builtin sequence each, order, fun key there => ?_⟩
  rw [Keyed.mem_keys_iff] at there
  obtain ⟨w, found⟩ := Option.isSome_iff_exists.1 there
  have come := (values key).symm.trans found
  refine ⟨w, found, ?_, fun items rest first more => ?_⟩
  · have some : Keyed.under key (entries.filterMap contribution?) ≠ [] := by
      intro none
      rw [none] at come
      cases come
    rw [← held_eq_ofValues_iff some, come, Option.some_inj]
    intro vs under
    obtain ⟨entry, -, contribution⟩ := List.mem_filterMap.1 (Keyed.mem_under.1 under)
    exact ne_nil_of_contribution? contribution
  · rw [first, held_cons _ more] at come
    exact (Option.some.inj come).symm

def parcels : List Value :=
  [.array [.string "b", .string "x"], .array [], .array [.string "a"], .array [.string "b", .string "y", .array []],
    .array [.bool true, .array [.null]], .array [.string "c", .array [.string "x"]],
    .array [.string "c", .string "z"]]

theorem fromItems_parcels : ∃ members, Returns {} .fromItems [.array parcels] (.ok (.object members)) ∧
    Keyed.keys members = ["b", "a", "true", "c"] ∧
    Keyed.get? "b" members = some (.array [.string "x", .string "y", .array []]) ∧
    Keyed.get? "true" members = some (.array [.null]) ∧
    Keyed.get? "c" members = some (.array [.string "x", .string "z"]) := by
  have each : ∀ entry ∈ parcels, IsEntry entry := by
    simp only [parcels, List.forall_mem_cons, List.not_mem_nil, false_imp_iff, implies_true, and_true]
    exact ⟨isEntry_cons rfl _, isEntry_nil, isEntry_cons rfl _, isEntry_cons rfl _, isEntry_cons rfl _,
      isEntry_cons rfl _, isEntry_cons rfl _⟩
  obtain ⟨members, result, keys, values⟩ := @fromItems_gathers {} (.array parcels) parcels rfl rfl each
  have order : Keyed.keys members = ["b", "a", "true", "c"] := keys
  have closed {vs : List Value} {rest : List (List Value)} (h : ∀ items, vs ≠ [.array items]) :
      ¬ Opens (vs :: rest) := by
    rintro ⟨items, _, same, -⟩
    exact h items (List.cons.inj same).1
  obtain ⟨b, foundB, manyB, -⟩ := values "b" (by simp [order])
  obtain ⟨t, foundT, manyT, -⟩ := values "true" (by simp [order])
  obtain ⟨c, foundC, -, joined⟩ := values "c" (by simp [order])
  refine ⟨members, result, order, foundB.trans ?_, foundT.trans ?_, foundC.trans ?_⟩
  · exact congrArg some (manyB.2 (closed nofun))
  · refine congrArg some (manyT.2 ?_)
    rintro ⟨items, rest, same, more⟩
    cases same
    exact more rfl
  · exact congrArg some (joined [.string "x"] [[.string "z"]] rfl (List.cons_ne_nil _ _))

/-- The items of an array that is the first value for a key are not told apart from values for the key. -/
theorem not_fromItems_gathers :
    let pair := Value.array [.ofInt 1, .ofInt 2]
    let entries := [.array [.string "k", pair], .array [.string "k", .ofInt 3]]
    (∀ entry ∈ entries, IsEntry entry) ∧
      Keyed.under "k" (entries.filterMap contribution?) = [[pair], [.ofInt 3]] ∧
      Returns {} .fromItems [.array entries]
        (.ok (.object [("k", .array [.ofInt 1, .ofInt 2, .ofInt 3])])) ∧
      Value.array [.ofInt 1, .ofInt 2, .ofInt 3] ≠ .ofValues [pair, .ofInt 3] := by
  intro pair entries
  have each : ∀ entry ∈ entries, IsEntry entry := by
    simp only [entries, List.forall_mem_cons, List.not_mem_nil, false_imp_iff, implies_true, and_true]
    exact ⟨isEntry_cons rfl _, isEntry_cons rfl _⟩
  refine ⟨each, rfl, ?_, fun same => ?_⟩
  · exact returns_fromItems rfl rfl each
  · have both : Value.ofValues [pair, .ofInt 3] = .array [pair, .ofInt 3] := rfl
    have lengths := congrArg List.length (Value.array.inj (same.trans both))
    simp at lengths

end Evaluator

end JsonQuery

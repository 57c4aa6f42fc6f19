import JsonQuery.Proofs.Order.Derived
import Mathlib.Data.List.Perm.Basic

/-!
Sorting by derived keys. The places of the elements are sorted by key; so the result is a permutation, and
without a NaN among the keys it does not decrease and leaves equal elements as they stood. With a NaN the
comparisons of the keys may contradict each other, and the sorter may give up.
-/
namespace JsonQuery

variable {α : Type}

/-- Whether a list holds the elements in an order in which keys that precede others stand before them, and
elements with equal keys stay as they stood. -/
def StablySorted (precedes : SortKey → SortKey → Prop) (keys : List SortKey) (items sorted : List α) :
    Prop :=
  ∃ places : List Nat, places.Perm (List.range items.length) ∧
    sorted.map some = places.map (items[·]?) ∧
    places.Pairwise fun i j => ∀ a ∈ keys[i]?, ∀ b ∈ keys[j]?, precedes a b ∨ (a.Level b ∧ i < j)

theorem StablySorted.perm {precedes : SortKey → SortKey → Prop} {keys : List SortKey} {items sorted : List α}
    (h : StablySorted precedes keys items sorted) : sorted.Perm items := by
  obtain ⟨places, perm, gathered, -⟩ := h
  have all : (List.range items.length).map (items[·]?) = items.map some := by
    apply List.ext_getElem <;> simp
  have moved := perm.map (items[·]?)
  rw [← gathered, all] at moved
  exact (List.map_perm_map_iff (Option.some_injective _)).1 moved

namespace Function

variable {sorter : Sorter} {keys : List SortKey} {items : List Value}

theorem sortByKeys_eq (sorter : Sorter) (items : List Value) (keys : List SortKey) :
    sortByKeys sorter items keys =
      sortedArray ((sorter.places? (orderAt keys.toArray)).map
        (List.map fun i => items.toArray[i.val]?.getD .null)) := by
  rw [sortByKeys, Sorter.sort_finRange]

theorem sortByKeys_of_none (stopped : sorter.sort SortKey.order keys = none) :
    sortByKeys sorter items keys = .error .disorder := by
  have places : sorter.places? (orderAt keys.toArray) = none := Option.map_eq_none_iff.1 stopped
  rw [sortByKeys_eq, places]
  rfl

theorem sortByKeys_of_sort {sortedKeys : List SortKey} (sized : keys.length = items.length)
    (sorts : sorter.sort SortKey.order keys = some sortedKeys) :
    ∃ sorted, sortByKeys sorter items keys = .ok (.array sorted) ∧ sorted.Perm items := by
  obtain ⟨places, found, -⟩ := Option.map_eq_some_iff.1 sorts
  change sorter.places? (orderAt keys.toArray) = some places at found
  have all : ((List.finRange keys.toArray.size).map fun i => items.toArray[i.val]?.getD .null) = items := by
    apply List.ext_getElem
    · simpa using sized
    · intro i left right
      simp [right]
  have moved := (sorter.perm found).map fun i => items.toArray[i.val]?.getD .null
  rw [all] at moved
  refine ⟨_, ?_, moved⟩
  rw [sortByKeys_eq, found]
  rfl

theorem sortByKeys_eq_ok {w : Value} (sized : keys.length = items.length)
    (succeeds : sortByKeys sorter items keys = .ok w) :
    sorter.sort SortKey.order keys ≠ none ∧ ∃ sorted, w = .array sorted ∧ sorted.Perm items := by
  cases sorts : sorter.sort SortKey.order keys with
  | none => cases (sortByKeys_of_none sorts).symm.trans succeeds
  | some sortedKeys =>
    obtain ⟨sorted, result, perm⟩ := sortByKeys_of_sort sized sorts
    cases result.symm.trans succeeds
    exact ⟨nofun, sorted, rfl, perm⟩

theorem sortByKeys_eq_error_iff {fault : Fault} (sized : keys.length = items.length) :
    sortByKeys sorter items keys = .error fault ↔
      fault = .disorder ∧ sorter.sort SortKey.order keys = none := by
  cases sorts : sorter.sort SortKey.order keys with
  | none => simp [sortByKeys_of_none sorts, @eq_comm Fault]
  | some sortedKeys =>
    obtain ⟨sorted, result, -⟩ := sortByKeys_of_sort sized sorts
    simp [result]

section Ordered

variable (kinds : SortKey.OneKind keys) (numbers : ∀ k ∈ keys, k.isNaN = false)
include kinds numbers

theorem exists_places (sorter : Sorter) :
    ∃ places, sorter.places? (orderAt keys.toArray) = some places ∧
      places.Pairwise fun i j => orderAt keys.toArray i j = .lt ∨ (orderAt keys.toArray i j = .eq ∧ i < j) := by
  have mem (i : Fin keys.toArray.size) : keys.toArray[i] ∈ keys := by simp
  exact sorter.stable (SortKey.transCmp_order (fun i j => kinds.eq (mem i) (mem j)) fun i => numbers _ (mem i))

theorem sort_keys_ne_none (sorter : Sorter) : sorter.sort SortKey.order keys ≠ none := by
  obtain ⟨places, found, -⟩ := exists_places kinds numbers sorter
  have sorts : sorter.sort SortKey.order keys = some (places.map (keys.toArray[·])) :=
    congrArg (Option.map _) found
  rw [sorts]
  nofun

theorem sortByKeys_stablySorted (sorter : Sorter) (sized : keys.length = items.length) :
    ∃ sorted, sortByKeys sorter items keys = .ok (.array sorted) ∧
      StablySorted SortKey.Before keys items sorted := by
  obtain ⟨places, found, ordered⟩ := exists_places kinds numbers sorter
  refine ⟨places.map fun i => items.toArray[i.val]?.getD .null, ?_, places.map (·.val), ?_, ?_, ?_⟩
  · rw [sortByKeys_eq, found]
    rfl
  · have moved := (sorter.perm found).map (·.val)
    rw [List.map_coe_finRange_eq_range] at moved
    simpa [sized] using moved
  · rw [List.map_map, List.map_map]
    refine List.map_congr_left fun i _ => ?_
    have bound : i.val < items.length := by simpa [sized] using i.isLt
    simp [bound]
  · rw [List.pairwise_map]
    refine ordered.imp fun {i j} related a ha b hb => ?_
    obtain rfl : keys.toArray[i] = a := by simpa using (List.getElem?_eq_some_iff.1 ha).2
    obtain rfl : keys.toArray[j] = b := by simpa using (List.getElem?_eq_some_iff.1 hb).2
    have left := List.mem_of_getElem? ha
    have right := List.mem_of_getElem? hb
    refine related.imp SortKey.order_eq_lt_iff.1 (And.imp_left fun level => ?_)
    rw [orderAt, SortKey.order_eq_compare_place (kinds.eq left right) (numbers _ left) (numbers _ right),
      compare_eq_iff_eq] at level
    exact (SortKey.level_iff_place (kinds.eq left right) (numbers _ left) (numbers _ right)).2 level

theorem sortByKeys_of_few (sorter : Sorter) (sized : keys.length = items.length) (few : items.length < 2) :
    sortByKeys sorter items keys = .ok (.array items) := by
  obtain ⟨sorted, result, stable⟩ := sortByKeys_stablySorted kinds numbers sorter sized
  have perm := stable.perm
  rw [result]
  rcases eq_nil_or_singleton few with rfl | ⟨x, rfl⟩
  · rw [List.perm_nil.1 perm]
  · rw [List.perm_singleton.1 perm]

end Ordered

end Function

namespace Evaluator

open JsonQuery.Function SortKey

/-- On two or more elements `sort_by` succeeds if and only if the expression gives all of them keys of
one kind and the sorter can sort these, as it can whenever none is a NaN. If it cannot, that is the
fault; otherwise the function fails as the first element does that breaks the condition on the keys. The
result is a permutation, and without a NaN among the keys it is the elements in the order of these, those
with equal keys as they stood. -/
theorem sortBy_stable {ev : Evaluator} (builtin : ev.registry.get? Builtin.sortBy.name = none) {v : Value}
    {items : List Value} (sequence : v.sequence? = some items) (several : 2 ≤ items.length)
    (identity : Identity) (body : Expr) (root : Value) (run : Run) :
    let evaluate := (ev.execute body · root)
    let outcome := (ev.call Builtin.sortBy.name [v, .reference identity body] root run).1
    ((∃ w, outcome = .ok w) ↔
      ∃ keys, Gives evaluate items keys run ∧ OneKind keys ∧ ev.sorter.sort SortKey.order keys ≠ none) ∧
    (∀ fault, outcome = .error fault ↔
      (∃ place, BreaksAt .sortBy evaluate items run place fault) ∨
      (fault = .disorder ∧
        ∃ keys, Gives evaluate items keys run ∧ OneKind keys ∧ ev.sorter.sort SortKey.order keys = none)) ∧
    (∀ keys, OneKind keys → (∀ k ∈ keys, k.isNaN = false) → ev.sorter.sort SortKey.order keys ≠ none) ∧
    ∀ w keys, outcome = .ok w → Gives evaluate items keys run →
      ∃ sorted, w = .array sorted ∧ sorted.Perm items ∧
        ((∀ k ∈ keys, k.isNaN = false) → StablySorted Before keys items sorted) := by
  intro evaluate outcome
  have applied : outcome = (sortBy ev.sorter (fun e v => ev.execute e v root)
      [.array items, .reference identity body] run).1 :=
    congrArg (fun x => (x run).1) (call_keyed_eq_apply builtin rfl sequence identity body root)
  rw [applied]
  refine ⟨⟨?_, ?_⟩, fun fault => ?_, fun keys kinds numbers => sort_keys_ne_none kinds numbers _, ?_⟩
  · rintro ⟨w, succeeds⟩
    obtain ⟨keys, gives, kinds, result⟩ := (byKey_eq_ok_iff several).1 succeeds
    exact ⟨keys, gives, kinds, (sortByKeys_eq_ok gives.length_eq result).1⟩
  · rintro ⟨keys, gives, kinds, sorts⟩
    obtain ⟨sortedKeys, sorts⟩ := Option.ne_none_iff_exists'.1 sorts
    obtain ⟨sorted, result, -⟩ := sortByKeys_of_sort gives.length_eq sorts
    exact ⟨_, (byKey_eq_ok_iff several).2 ⟨keys, gives, kinds, result⟩⟩
  · refine (byKey_eq_error_iff several).trans (or_congr_right ⟨?_, ?_⟩)
    · rintro ⟨keys, gives, kinds, fails⟩
      obtain ⟨rfl, stopped⟩ := (sortByKeys_eq_error_iff gives.length_eq).1 fails
      exact ⟨rfl, keys, gives, kinds, stopped⟩
    · rintro ⟨rfl, keys, gives, kinds, stopped⟩
      exact ⟨keys, gives, kinds, sortByKeys_of_none stopped⟩
  · intro w keys succeeds gives
    obtain ⟨keys', gives', kinds, result⟩ := (byKey_eq_ok_iff several).1 succeeds
    obtain rfl := gives.unique gives'
    obtain ⟨-, sorted, rfl, perm⟩ := sortByKeys_eq_ok gives.length_eq result
    refine ⟨sorted, rfl, perm, fun numbers => ?_⟩
    obtain ⟨sorted', result', stable⟩ := sortByKeys_stablySorted kinds numbers ev.sorter gives.length_eq
    cases result.symm.trans result'
    exact stable

def wordRows : List Value :=
  [.array [.string "b", .bool true], .array [.string "a"], .array [.string "b", .bool false]]

def words : List SortKey := [.text "b", .text "a", .text "b"]

theorem gives_words : Gives (Evaluator.execute {} (.index 0) · .null) wordRows words (.seeded 0) :=
  ⟨_, [.string "b", .string "a", .string "b"], rfl, rfl⟩

theorem oneKind_words : OneKind words := ⟨.string, by simp [words, kind]⟩

theorem number_words : ∀ k ∈ words, k.isNaN = false := by simp [words, isNaN]

theorem sortBy_wordRows :
    ∃ sorted, (Evaluator.call {} "sort_by"
        [.record ⟨.given 0, "Rows", [], some wordRows⟩, .reference (.given 1) (.index 0)] .null (.seeded 0)).1 =
      .ok (.array sorted) ∧ StablySorted Before words wordRows sorted := by
  obtain ⟨succeeds, -, sortable, sorts⟩ :=
    @sortBy_stable {} rfl (.record ⟨.given 0, "Rows", [], some wordRows⟩) wordRows rfl (by decide)
      (.given 1) (.index 0) .null (.seeded 0)
  obtain ⟨w, result⟩ := succeeds.2 ⟨_, gives_words, oneKind_words, sortable _ oneKind_words number_words⟩
  obtain ⟨sorted, rfl, -, stable⟩ := sorts w _ result gives_words
  exact ⟨sorted, result, stable number_words⟩

/-- One row for each number from 21 down to 1, but the one for 16 is empty. -/
def countdown : List Value :=
  (List.range 21).map fun i => .array (if i = 5 then [] else [.ofInt (21 - i)])

def average : Expr := .call Builtin.avg.name [.current]

def averages : List SortKey :=
  (List.range 21).map fun i => .number (if i = 5 then .quietNaN true else .ofInt (21 - i))

/-- All rows have a numeric average, that of the empty one being a NaN; but the sorter gives up. -/
theorem sortBy_countdown :
    Gives (Evaluator.execute {} average · .null) countdown averages (.seeded 0) ∧ OneKind averages ∧
    (Evaluator.call {} Builtin.sortBy.name [.array countdown, .reference (.given 0) average] .null
      (.seeded 0)).1 = .error .disorder := by
  have gives : Gives (Evaluator.execute {} average · .null) countdown averages (.seeded 0) :=
    gives_iff.2 (by decide +kernel)
  have kinds : OneKind averages := ⟨.number, by simp [averages, kind]⟩
  refine ⟨gives, kinds, ?_⟩
  -- The averages 21 and 15 are each level with the one between them, which has to stay there.
  have stopped : Sorter.merging.sort SortKey.order averages = none := by
    refine Option.map_eq_none_iff.2 (Sorter.merging_of_cycle (by simp [averages])
      (i := ⟨0, by simp [averages]⟩) (j := ⟨6, by simp [averages]⟩) (k := ⟨5, by simp [averages]⟩) ?_ ?_ ?_)
    all_goals decide +kernel
  have applied := @call_keyed_eq_apply {} .sortBy rfl rfl (.array countdown) countdown rfl (.given 0) average
    .null
  have keyed : (sortBy .merging (fun e v => Evaluator.execute {} e v .null)
      [.array countdown, .reference (.given 0) average] (.seeded 0)).1 = sortByKeys .merging countdown averages :=
    byKey_of_gives (by simp [countdown]) gives kinds
  rw [applied, Builtin.apply, keyed, sortByKeys_of_none stopped]

end Evaluator

end JsonQuery

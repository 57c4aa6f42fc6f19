import JsonQuery.Proofs.Order.Stable
import Mathlib.Data.List.Zip

/-!
Elements with distinct keys. An element stays at a place if its key is the same as none at a place before;
so every element that goes has the key of one that stays before it.
-/
namespace JsonQuery

variable {α : Type}

namespace Function

variable {key : α → SortKey} {seen : List SortKey} {x : α} {rest xs : List α} {i : Nat}

/-- Whether the key at a place is neither among those seen nor at a place before. -/
def FreshAt (key : α → SortKey) (seen : List SortKey) (xs : List α) (i : Nat) : Prop :=
  ∃ x, xs[i]? = some x ∧ (key x).canonical ∉ seen ∧
    ∀ j < i, ∀ y ∈ xs[j]?, (key y).canonical ≠ (key x).canonical

theorem freshAt_zero : FreshAt key seen (x :: rest) 0 ↔ (key x).canonical ∉ seen := by
  simp [FreshAt]

theorem freshAt_succ : FreshAt key seen (x :: rest) (i + 1) ↔
    FreshAt key ((key x).canonical :: seen) rest i := by
  constructor
  · rintro ⟨y, here, unseen, before⟩
    refine ⟨y, here, ?_, fun j less => before (j + 1) (Nat.succ_lt_succ less)⟩
    rw [List.mem_cons, not_or]
    exact ⟨(before 0 (Nat.succ_pos i) x rfl).symm, unseen⟩
  · rintro ⟨y, here, unseen, before⟩
    rw [List.mem_cons, not_or] at unseen
    refine ⟨y, here, unseen.2, fun j less z hz => ?_⟩
    cases j with
    | zero =>
      cases hz
      exact fun same => unseen.1 same.symm
    | succ j => exact before j (Nat.lt_of_succ_lt_succ less) z hz

theorem freshAt_cons_of_mem {k : SortKey} (old : k ∈ seen) :
    FreshAt key (k :: seen) xs i ↔ FreshAt key seen xs i := by
  have : ∀ k', k' ∈ k :: seen ↔ k' ∈ seen := fun k' => by
    rw [List.mem_cons, or_iff_right_of_imp fun same => same ▸ old]
  simp only [FreshAt, this]

theorem distinctAfter_places (key : α → SortKey) (seen : List SortKey) (xs : List α) :
    ∃ places : List Nat, places.Pairwise (· < ·) ∧ (∀ i, i ∈ places ↔ FreshAt key seen xs i) ∧
      (distinctAfter key seen xs).map some = places.map (xs[·]?) := by
  induction xs generalizing seen with
  | nil => exact ⟨[], .nil, by simp [FreshAt], rfl⟩
  | cons x rest ih =>
    -- The places in the rest move up by one. Whether the first element stays or not, the others are fresh
    -- with its key seen; where it goes, the key was seen already.
    have later {places : List Nat} (i : Nat) : i + 1 ∈ places.map Nat.succ ↔ i ∈ places :=
      List.mem_map_of_injective Nat.succ_injective
    by_cases old : (key x).canonical ∈ seen
    · obtain ⟨places, ascending, fresh, kept⟩ := ih seen
      refine ⟨places.map Nat.succ, ascending.map _ fun _ _ => Nat.succ_lt_succ, fun i => ?_, ?_⟩
      · cases i with
        | zero => simp [freshAt_zero, old]
        | succ i => rw [later, fresh, freshAt_succ, freshAt_cons_of_mem old]
      · rw [distinctAfter, if_pos old, kept, List.map_map]
        rfl
    · obtain ⟨places, ascending, fresh, kept⟩ := ih ((key x).canonical :: seen)
      refine ⟨0 :: places.map Nat.succ,
        .cons (by simp) (ascending.map _ fun _ _ => Nat.succ_lt_succ), fun i => ?_, ?_⟩
      · cases i with
        | zero => simp [freshAt_zero, old]
        | succ i => rw [List.mem_cons, or_iff_right (Nat.succ_ne_zero i), later, fresh, freshAt_succ]
      · rw [distinctAfter, if_neg old, List.map_cons, kept, List.map_cons, List.map_map]
        rfl

theorem distinctAfter_idem (key : α → SortKey) (seen : List SortKey) (xs : List α) :
    distinctAfter key seen (distinctAfter key seen xs) = distinctAfter key seen xs := by
  induction xs generalizing seen with
  | nil => rfl
  | cons x rest ih =>
    by_cases old : (key x).canonical ∈ seen
    · rw [distinctAfter, if_pos old, ih]
    · rw [distinctAfter, if_neg old, distinctAfter, if_neg old, ih]

theorem distinctAfter_map {β : Type} (f : α → β) (key : β → SortKey) (seen : List SortKey) (xs : List α) :
    distinctAfter key seen (xs.map f) = (distinctAfter (fun x => key (f x)) seen xs).map f := by
  induction xs generalizing seen with
  | nil => rfl
  | cons x rest ih =>
    rw [List.map_cons, distinctAfter, distinctAfter]
    by_cases old : (key (f x)).canonical ∈ seen
    · rw [if_pos old, if_pos old, ih]
    · rw [if_neg old, if_neg old, ih, List.map_cons]

theorem distinctBy_eq (items : List Value) (keys : List SortKey) :
    distinctBy items keys = (distinctAfter Prod.fst [] (keys.zip items)).map Prod.snd := by
  rw [distinctBy, ← List.zip_swap, distinctAfter_map, List.map_map]
  rfl

end Function

theorem SortKey.OneKind.of_gathered {keys gathered : List SortKey} {places : List Nat}
    (kinds : OneKind keys) (each : gathered.map some = places.map (keys[·]?)) : OneKind gathered := by
  obtain ⟨kind, all⟩ := kinds
  refine ⟨kind, fun k mem => all k ?_⟩
  obtain ⟨i, -, here⟩ := List.mem_map.1 (each ▸ List.mem_map_of_mem mem)
  exact List.mem_of_getElem? here

def SameAt (keys : List SortKey) (i j : Nat) : Prop := ∃ a ∈ keys[i]?, ∃ b ∈ keys[j]?, a.Same b

namespace SameAt

variable {keys : List SortKey} {h i j : Nat}

theorem symm (same : SameAt keys i j) : SameAt keys j i := by
  obtain ⟨a, ha, b, hb, same⟩ := same
  exact ⟨b, hb, a, ha, SortKey.same_iff_canonical.2 (SortKey.same_iff_canonical.1 same).symm⟩

theorem trans (left : SameAt keys h i) (right : SameAt keys i j) : SameAt keys h j := by
  obtain ⟨a, ha, b, hb, left⟩ := left
  obtain ⟨b', hb', c, hc, right⟩ := right
  obtain rfl := Option.some.inj (hb.symm.trans hb')
  exact ⟨a, ha, c, hc, SortKey.same_iff_canonical.2
    ((SortKey.same_iff_canonical.1 left).trans (SortKey.same_iff_canonical.1 right))⟩

end SameAt

/-- Whether `kept` holds, in order, the elements at the places, which are those whose key is the same as
none before. -/
structure KeepsFirsts (keys : List SortKey) (items : List α) (places : List Nat) (kept : List α) : Prop where
  ascending : places.Pairwise (· < ·)
  firsts : ∀ i, i ∈ places ↔ i < items.length ∧ ∀ j < i, ¬ SameAt keys j i
  gathered : kept.map some = places.map (items[·]?)

namespace KeepsFirsts

variable {keys : List SortKey} {items kept : List α} {places : List Nat}

theorem distinct (h : KeepsFirsts keys items places kept) {i j : Nat} (hi : i ∈ places) (hj : j ∈ places)
    (same : SameAt keys i j) : i = j := by
  rcases Nat.lt_trichotomy i j with less | rfl | less
  · exact absurd same (((h.firsts j).1 hj).2 i less)
  · rfl
  · exact absurd same.symm (((h.firsts i).1 hi).2 j less)

theorem covered (h : KeepsFirsts keys items places kept) {i : Nat} (bound : i < items.length)
    (gone : i ∉ places) : ∃ j ∈ places, j < i ∧ SameAt keys j i := by
  -- Going back from place to place with the same key ends at one that stays.
  induction i using Nat.strong_induction_on with
  | _ i ih =>
    obtain ⟨j, less, same⟩ : ∃ j < i, SameAt keys j i := by
      by_contra none
      exact gone ((h.firsts i).2 ⟨bound, fun j less same => none ⟨j, less, same⟩⟩)
    by_cases stays : j ∈ places
    · exact ⟨j, stays, less, same⟩
    · obtain ⟨first, mem, before, same'⟩ := ih j less (Nat.lt_trans less bound) stays
      exact ⟨first, mem, Nat.lt_trans before less, same'.trans same⟩

end KeepsFirsts

namespace Function

open SortKey

variable {keys : List SortKey} {items : List α}

theorem freshAt_zip (sized : keys.length = items.length) {i : Nat} :
    FreshAt Prod.fst [] (keys.zip items) i ↔ i < items.length ∧ ∀ j < i, ¬ SameAt keys j i := by
  have pair {j : Nat} (bound : j < items.length) : (keys.zip items)[j]? = some (keys[j], items[j]) :=
    List.getElem?_zip_eq_some.2 ⟨List.getElem?_eq_getElem _, List.getElem?_eq_getElem _⟩
  constructor
  · rintro ⟨x, here, -, before⟩
    obtain ⟨key, item⟩ := List.getElem?_zip_eq_some.1 here
    have bound := (List.getElem?_eq_some_iff.1 item).1
    refine ⟨bound, fun j less ⟨a, ha, b, hb, same⟩ => ?_⟩
    obtain rfl := Option.some.inj (hb.symm.trans key)
    have there := pair (less.trans bound)
    rw [(List.getElem?_eq_some_iff.1 ha).2] at there
    exact before j less _ there (same_iff_canonical.1 same)
  · rintro ⟨bound, before⟩
    refine ⟨_, pair bound, List.not_mem_nil, fun j less y hy same => ?_⟩
    exact before j less ⟨y.1, (List.getElem?_zip_eq_some.1 hy).1, _, List.getElem?_eq_getElem _,
      same_iff_canonical.2 same⟩

theorem gathered_map {β : Type} (f : α → β) {xs kept : List α} {places : List Nat}
    (gathered : kept.map some = places.map (xs[·]?)) :
    (kept.map f).map some = places.map ((xs.map f)[·]?) := by
  have := congrArg (List.map (Option.map f)) gathered
  simpa [Function.comp_def] using this

theorem distinctAfter_keepsFirsts (sized : keys.length = items.length) :
    ∃ places, KeepsFirsts keys items places ((distinctAfter Prod.fst [] (keys.zip items)).map Prod.snd) ∧
      ((distinctAfter Prod.fst [] (keys.zip items)).map Prod.fst).map some = places.map (keys[·]?) := by
  obtain ⟨places, ascending, fresh, gathered⟩ := distinctAfter_places Prod.fst [] (keys.zip items)
  have elements := gathered_map Prod.snd gathered
  have first := gathered_map Prod.fst gathered
  rw [List.map_snd_zip sized.ge] at elements
  rw [List.map_fst_zip sized.le] at first
  exact ⟨places, ⟨ascending, fun i => (fresh i).trans (freshAt_zip sized), elements⟩, first⟩

theorem distinctBy_of_few {items : List Value} (sized : keys.length = items.length) (few : items.length < 2) :
    distinctBy items keys = items := by
  rcases eq_nil_or_singleton few with rfl | ⟨x, rfl⟩
  · rfl
  · obtain ⟨k, rfl⟩ := List.length_eq_one_iff.1 sized
    rfl

end Function

namespace Evaluator

open JsonQuery.Function SortKey

/-- On two or more elements `dedup_by` keeps those whose key is the same as no earlier element's. So no
two of them have the same key, every other element has the key of one that stays before it, and if the
elements that stay get their keys again, the function keeps all of them. -/
theorem dedupBy_firsts {ev : Evaluator} (builtin : ev.registry.get? Builtin.dedupBy.name = none) {v : Value}
    {items : List Value} (sequence : v.sequence? = some items) (several : 2 ≤ items.length)
    (identity : Identity) (body : Expr) (root : Value) (run : Run) {w : Value}
    (succeeds : (ev.call Builtin.dedupBy.name [v, .reference identity body] root run).1 = .ok w) :
    ∃ keys places kept, Gives (ev.execute body · root) items keys run ∧ w = .array kept ∧
      KeepsFirsts keys items places kept ∧
      (∀ i ∈ places, ∀ j ∈ places, SameAt keys i j → i = j) ∧
      (∀ i < items.length, i ∉ places → ∃ j ∈ places, j < i ∧ SameAt keys j i) ∧
      ∀ keptKeys again, keptKeys.map some = places.map (keys[·]?) →
        (2 ≤ kept.length → Gives (ev.execute body · root) kept keptKeys again) →
        (ev.call Builtin.dedupBy.name [w, .reference identity body] root again).1 = .ok w := by
  rw [call_keyed_eq_apply builtin rfl sequence, Builtin.apply, dedupBy] at succeeds
  obtain ⟨keys, gives, kinds, result⟩ := (byKey_eq_ok_iff several).1 succeeds
  cases result
  obtain ⟨places, firsts, keyed⟩ := distinctAfter_keepsFirsts gives.length_eq
  rw [distinctBy_eq]
  refine ⟨keys, places, _, gives, rfl, firsts, fun i hi j hj => firsts.distinct hi hj,
    fun i bound gone => firsts.covered bound gone, fun keptKeys again each steady => ?_⟩
  generalize stay : distinctAfter Prod.fst [] (keys.zip items) = kept at keyed steady
  obtain rfl := List.map_injective_iff.2 (Option.some_injective _) (each.trans keyed.symm)
  have sized : (kept.map Prod.fst).length = (kept.map Prod.snd).length := by simp
  have idem : distinctBy (kept.map Prod.snd) (kept.map Prod.fst) = kept.map Prod.snd := by
    rw [distinctBy_eq, ← List.zip_of_prod rfl rfl, ← stay, distinctAfter_idem]
  rw [call_keyed_eq_apply builtin rfl rfl, Builtin.apply, dedupBy,
    byKey_of_alike (fun few => by rw [distinctBy_of_few sized few]) steady
      (kinds.of_gathered keyed), idem]

theorem dedupBy_wordRows :
    ∃ places kept, (Evaluator.call {} Builtin.dedupBy.name [.array wordRows, .reference (.given 0) (.index 0)]
        .null (.seeded 0)).1 = .ok (.array kept) ∧ KeepsFirsts words wordRows places kept := by
  have succeeds : (Evaluator.call {} Builtin.dedupBy.name
      [.array wordRows, .reference (.given 0) (.index 0)] .null (.seeded 0)).1 =
        .ok (.array (distinctBy wordRows words)) := by
    rw [call_keyed_eq_apply rfl rfl rfl, Builtin.apply, dedupBy,
      byKey_of_gives (by decide) gives_words oneKind_words]
  obtain ⟨keys, places, kept, gives, same, firsts, -⟩ :=
    dedupBy_firsts rfl rfl (by decide) (.given 0) (.index 0) .null (.seeded 0) succeeds
  obtain rfl := gives.unique gives_words
  exact ⟨places, kept, same ▸ succeeds, firsts⟩

end Evaluator

end JsonQuery

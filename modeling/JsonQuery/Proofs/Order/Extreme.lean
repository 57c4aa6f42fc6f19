import JsonQuery.Proofs.Order.Stable

/-!
The scan for an extreme finds the first element that no other beats. Of the elements in the order of their
keys this is the first one; and the first of the greatest is the last one of the elements that were turned
round before they were sorted.
-/
namespace JsonQuery

variable {α : Type}

/-- Whether an element is the first one that no other beats: it beats those before it, and none after it
beats it. -/
def Earliest (beats : α → α → Prop) (items : List α) (x : α) : Prop :=
  ∃ i : Nat, items[i]? = some x ∧ (∀ j < i, ∀ y ∈ items[j]?, beats x y) ∧
    ∀ j > i, ∀ y ∈ items[j]?, ¬ beats y x

namespace Earliest

variable {beats : α → α → Prop} {items : List α} {x y : α}

theorem unique (h : Earliest beats items x) (h' : Earliest beats items y) : x = y := by
  obtain ⟨i, here, before, after⟩ := h
  obtain ⟨j, there, before', after'⟩ := h'
  rcases Nat.lt_trichotomy i j with less | rfl | less
  · exact absurd (before' i less x here) (after j less y there)
  · exact Option.some.inj (here.symm.trans there)
  · exact absurd (before j less y there) (after' i less x here)

theorem singleton (x : α) : Earliest beats [x] x := by
  refine ⟨0, rfl, fun j less => absurd less (Nat.not_lt_zero j), fun j more y hy => ?_⟩
  match j, more with
  | j + 1, _ => cases hy

theorem mem (h : Earliest beats items x) : x ∈ items := by
  obtain ⟨i, here, -⟩ := h
  exact List.mem_of_getElem? here

theorem eq_or_beats {first : α} (h : Earliest beats (first :: items) x) : x = first ∨ beats x first := by
  obtain ⟨i, here, before, -⟩ := h
  cases i with
  | zero => exact .inl (Option.some.inj here).symm
  | succ i => exact .inr (before 0 (Nat.succ_pos i) first rfl)

theorem cons (h : Earliest beats items x) (beaten : beats x y) : Earliest beats (y :: items) x := by
  obtain ⟨i, here, before, after⟩ := h
  refine ⟨i + 1, here, fun j less z hz => ?_, fun j more z hz => ?_⟩
  · cases j with
    | zero =>
      cases hz
      exact beaten
    | succ j => exact before j (Nat.lt_of_succ_lt_succ less) z hz
  · cases j with
    | zero => exact absurd more (Nat.not_lt_zero _)
    | succ j => exact after j (Nat.lt_of_succ_lt_succ more) z hz

theorem insert {first : α} (h : Earliest beats (first :: items) x) (same : x = first → ¬ beats y x)
    (other : beats x first → beats x y) : Earliest beats (first :: y :: items) x := by
  obtain ⟨i, here, before, after⟩ := h
  cases i with
  | zero =>
    cases here
    refine ⟨0, rfl, fun j less => absurd less (Nat.not_lt_zero j), fun j more z hz => ?_⟩
    match j, more with
    | 1, _ =>
      cases hz
      exact same rfl
    | j + 2, _ => exact after (j + 1) (Nat.succ_pos j) z hz
  | succ i =>
    refine ⟨i + 2, here, fun j less z hz => ?_, fun j more z hz => ?_⟩
    · match j with
      | 0 => exact before 0 (Nat.succ_pos i) z hz
      | 1 =>
        cases hz
        exact other (before 0 (Nat.succ_pos i) first rfl)
      | j + 2 => exact before (j + 1) (by omega) z hz
    · match j, more with
      | j + 2, _ => exact after (j + 1) (by omega) z hz

end Earliest

namespace Function

def better (wanted : Ordering) (key : α → SortKey) (best x : α) : α :=
  if (key x).order (key best) = wanted then x else best

def extreme (wanted : Ordering) (key : α → SortKey) : List α → Option α
  | [] => none
  | first :: rest => some (rest.foldl (better wanted key) first)

section Place

variable {wanted : Ordering} {pairs : List (SortKey × α)} {place : Nat} {best : SortKey × α}

theorem getElem?_betterPlace (wanted : Ordering) {other : Nat} {x : SortKey × α} (here : pairs[place]? = some best)
    (there : pairs[other]? = some x) :
    pairs[betterPlace wanted (pairs.map Prod.fst) place (x.1, other)]? = some (better wanted Prod.fst best x) := by
  rw [betterPlace, better, List.getElem?_map, here]
  by_cases beats : x.1.order best.1 = wanted <;> simpa [beats]

/-- The scan over places stays at the place of the element that the scan over elements keeps. -/
theorem foldl_betterPlace {before rest : List (SortKey × α)} (split : pairs = before ++ rest)
    (here : pairs[place]? = some best) :
    pairs[((rest.map Prod.fst).zipIdx before.length).foldl (betterPlace wanted (pairs.map Prod.fst)) place]? =
      some (rest.foldl (better wanted Prod.fst) best) := by
  induction rest generalizing before place best with
  | nil => exact here
  | cons x rest ih =>
    have there : pairs[before.length]? = some x := by simp [split]
    have next := @ih _ _ (before ++ [x]) (by simp [split]) (getElem?_betterPlace wanted here there)
    simpa using next

theorem getElem?_extremePlace (nonempty : pairs ≠ []) :
    pairs[extremePlace wanted (pairs.map Prod.fst)]? = extreme wanted Prod.fst pairs := by
  cases pairs with
  | nil => exact absurd rfl nonempty
  | cons first rest => exact @foldl_betterPlace _ _ _ 0 first [first] rest rfl rfl

theorem extremeBy_of_extreme {items : List Value} {keys : List SortKey} {best : SortKey × Value}
    (sized : keys.length = items.length) (found : extreme wanted Prod.fst (keys.zip items) = some best) :
    extremeBy wanted items keys = best.2 := by
  have nonempty : keys.zip items ≠ [] := fun empty => by
    rw [empty] at found
    cases found
  have there := (getElem?_extremePlace nonempty).trans found
  rw [List.map_fst_zip sized.le] at there
  rw [extremeBy, (List.getElem?_zip_eq_some.1 there).2]
  rfl

theorem extremeBy_of_few {items : List Value} {keys : List SortKey} (sized : keys.length = items.length)
    (few : items.length < 2) : extremeBy wanted items keys = items.head?.getD .null := by
  rcases eq_nil_or_singleton few with rfl | ⟨x, rfl⟩
  · rfl
  · obtain ⟨k, rfl⟩ := List.length_eq_one_iff.1 sized
    rfl

end Place

section Scan

variable {beats : α → α → Prop} [DecidableRel beats]

/-- The scan finds the earliest element where `beats` agrees with a linear order. -/
theorem scan_earliest {L : Type} [LinearOrder L] (measure : α → L) {first : α} {rest : List α}
    (agrees : ∀ x ∈ first :: rest, ∀ y ∈ first :: rest, beats x y ↔ measure x < measure y) :
    Earliest beats (first :: rest) (rest.foldl (fun best x => if beats x best then x else best) first) := by
  induction rest generalizing first with
  | nil => exact .singleton first
  | cons v rest ih =>
    -- The best of the rest is found from the better of the first two on, and the other one beats neither.
    have first_mem : first ∈ first :: v :: rest := .head _
    have v_mem : v ∈ first :: v :: rest := .tail _ (.head _)
    rw [List.foldl_cons]
    split
    next better =>
      have scan := ih fun x hx y hy => agrees x (.tail _ hx) y (.tail _ hy)
      refine scan.cons ?_
      rcases scan.eq_or_beats with same | beaten
      · rwa [same]
      · have mem := List.mem_cons_of_mem first scan.mem
        exact (agrees _ mem _ first_mem).2 (((agrees _ mem _ v_mem).1 beaten).trans
          ((agrees _ v_mem _ first_mem).1 better))
    next worse =>
      have subset : first :: rest ⊆ first :: v :: rest :=
        List.cons_subset_cons _ (List.subset_cons_self _ _)
      have scan := ih fun x hx y hy => agrees x (subset hx) y (subset hy)
      refine scan.insert (fun same => same.symm ▸ worse) fun beaten => ?_
      have mem := subset scan.mem
      exact (agrees _ mem _ v_mem).2 (((agrees _ mem _ first_mem).1 beaten).trans_le
        (not_lt.1 fun less => worse ((agrees _ v_mem _ first_mem).2 less)))

theorem extreme_earliest {L : Type} [LinearOrder L] (measure : α → L) {wanted : Ordering}
    {key : α → SortKey} {items : List α} (nonempty : items ≠ [])
    (agrees : ∀ x ∈ items, ∀ y ∈ items, (key x).order (key y) = wanted ↔ measure x < measure y) :
    ∃ best, extreme wanted key items = some best ∧
      Earliest (fun x y => (key x).order (key y) = wanted) items best := by
  cases items with
  | nil => exact absurd rfl nonempty
  | cons first rest => exact ⟨_, rfl, scan_earliest measure agrees⟩

end Scan

variable {keys : List SortKey} {items : List α} (kinds : SortKey.OneKind keys)
  (numbers : ∀ k ∈ keys, k.isNaN = false) (nonempty : keys.zip items ≠ [])
include kinds numbers nonempty

theorem extreme_lt_earliest : ∃ least, extreme .lt Prod.fst (keys.zip items) = some least ∧
    Earliest (fun p q => p.1.Before q.1) (keys.zip items) least := by
  simp only [← SortKey.order_eq_lt_iff]
  refine extreme_earliest (·.1.place) nonempty fun p hp q hq => ?_
  have hp := (List.of_mem_zip hp).1
  have hq := (List.of_mem_zip hq).1
  exact SortKey.order_eq_lt_iff.trans
    (SortKey.before_iff_place (kinds.eq hp hq) (numbers _ hp) (numbers _ hq))

theorem extreme_gt_earliest : ∃ greatest, extreme .gt Prod.fst (keys.zip items) = some greatest ∧
    Earliest (fun p q => q.1.Before p.1) (keys.zip items) greatest := by
  simp only [← SortKey.order_eq_gt_iff]
  refine extreme_earliest (fun p => OrderDual.toDual p.1.place) nonempty fun p hp q hq => ?_
  have hp := (List.of_mem_zip hp).1
  have hq := (List.of_mem_zip hq).1
  exact SortKey.order_eq_gt_iff.trans
    (SortKey.before_iff_place (kinds.eq hq hp) (numbers _ hq) (numbers _ hp))

end Function

section Sorted

open SortKey

variable {keys : List SortKey} {items sorted : List α} {i : Nat} {k : SortKey} {x : α}

theorem earliest_zip {beats : SortKey → SortKey → Prop} (key : keys[i]? = some k)
    (item : items[i]? = some x) (before : ∀ j < i, ∀ a ∈ keys[j]?, beats k a)
    (after : ∀ j > i, ∀ a ∈ keys[j]?, ¬ beats a k) :
    Earliest (fun p q => beats p.1 q.1) (keys.zip items) (k, x) :=
  ⟨i, List.getElem?_zip_eq_some.2 ⟨key, item⟩,
    fun j less q hq => before j less q.1 (List.getElem?_zip_eq_some.1 hq).1,
    fun j more q hq => after j more q.1 (List.getElem?_zip_eq_some.1 hq).1⟩

/-- The first of the sorted elements is the earliest that no other precedes. -/
theorem StablySorted.head_earliest {precedes : SortKey → SortKey → Prop}
    (h : StablySorted precedes keys items sorted) (sized : keys.length = items.length) (nonempty : items ≠ [])
    (asymm : ∀ a b, precedes a b → ¬ precedes b a) (level : ∀ a b, a.Level b → ¬ precedes b a) :
    ∃ best, sorted.head? = some best.2 ∧
      Earliest (fun p q => precedes p.1 q.1) (keys.zip items) best := by
  obtain ⟨places, perm, gathered, ordered⟩ := h
  cases places with
  | nil => exact absurd (List.length_eq_zero_iff.1 (by simpa using perm.length_eq.symm)) nonempty
  | cons i rest =>
    have bound : i < items.length := List.mem_range.1 (perm.mem_iff.1 (.head _))
    have key : keys[i]? = some keys[i] := List.getElem?_eq_getElem _
    have others (j) (other : j ≠ i) (a) (ha : a ∈ keys[j]?) :
        precedes keys[i] a ∨ (keys[i].Level a ∧ i < j) := by
      have mem : j ∈ i :: rest :=
        perm.mem_iff.2 (List.mem_range.2 (sized ▸ (List.getElem?_eq_some_iff.1 ha).1))
      exact List.rel_of_pairwise_cons ordered (List.mem_of_ne_of_mem other mem) _ key a ha
    refine ⟨(keys[i], items[i]), ?_, earliest_zip key (List.getElem?_eq_getElem bound) ?_ ?_⟩
    · have := congrArg List.head? gathered
      simpa [List.getElem?_eq_getElem bound] using this
    · intro j less a ha
      exact (others j less.ne a ha).resolve_right fun same => Nat.lt_asymm less same.2
    · intro j more a ha
      rcases others j (Nat.ne_of_gt more) a ha with less | ⟨same, -⟩
      · exact asymm _ _ less
      · exact level _ _ same

theorem StablySorted.reverse {precedes : SortKey → SortKey → Prop}
    (h : StablySorted precedes keys.reverse items.reverse sorted) (sized : keys.length = items.length) :
    StablySorted (flip precedes) keys items sorted.reverse := by
  obtain ⟨places, perm, gathered, ordered⟩ := h
  rw [List.length_reverse] at perm
  have bound : ∀ i ∈ places, i < items.length := fun i hi => List.mem_range.1 (perm.mem_iff.1 hi)
  -- An element is at the same place counted from the other end, so the ties come out the other way round,
  -- and reading the sorted elements from the last on puts them right.
  refine ⟨(places.map (items.length - 1 - ·)).reverse, ?_, ?_, ?_⟩
  · have turned : (List.range items.length).map (items.length - 1 - ·) =
        (List.range items.length).reverse := by
      simp [List.range_eq_range', List.reverse_range']
    have perm := perm.map (items.length - 1 - ·)
    rw [turned] at perm
    exact (List.reverse_perm _).trans (perm.trans (List.reverse_perm _))
  · rw [List.map_reverse, List.map_reverse, gathered, List.map_map]
    congr 1
    exact List.map_congr_left fun i hi => List.getElem?_reverse (bound i hi)
  · rw [List.pairwise_reverse, List.pairwise_map]
    refine ordered.imp_of_mem fun {i j} hi hj related a ha b hb => ?_
    have hi := bound i hi
    have hj := bound j hj
    rw [List.getElem?_reverse (sized ▸ hi), List.getElem?_reverse (sized ▸ hj), sized] at related
    rcases related b hb a ha with less | ⟨same, before⟩
    · exact .inl less
    · exact .inr ⟨same.symm, by omega⟩

theorem zip_ne_nil (sized : keys.length = items.length) (nonempty : items ≠ []) : keys.zip items ≠ [] := by
  cases items with
  | nil => exact absurd rfl nonempty
  | cons x rest =>
    cases keys with
    | nil => cases sized
    | cons => exact List.cons_ne_nil _ _

end Sorted

namespace Function

open SortKey

variable {b : Builtin} (evaluate : Evaluate) {identity : Identity} {body : Expr} {items : List Value}
  {keys : List SortKey} {run : Run} (derived : 2 ≤ items.length → Gives (evaluate body) items keys run)
  (sized : keys.length = items.length)
include derived sized

theorem sortBy_of_ok {sorter : Sorter} (numbers : ∀ k ∈ keys, k.isNaN = false) {w : Value}
    (succeeds : (sortBy sorter evaluate [.array items, .reference identity body] run).1 = .ok w) :
    OneKind keys ∧ ∃ sorted, w = .array sorted ∧ StablySorted Before keys items sorted := by
  have kinds := oneKind_of_ok sized derived succeeds
  obtain ⟨sorted, result, stable⟩ := sortByKeys_stablySorted kinds numbers sorter sized
  rw [sortBy, byKey_of_alike (sortByKeys_of_few kinds numbers sorter sized) derived kinds, result] at succeeds
  cases succeeds
  exact ⟨kinds, sorted, rfl, stable⟩

variable (kinds : OneKind keys)
include kinds

theorem extremeBy_eq {wanted : Ordering} {best : SortKey × Value}
    (found : extreme wanted Prod.fst (keys.zip items) = some best) :
    (byKey b evaluate (·.head?.getD .null) (fun items keys => .ok (extremeBy wanted items keys))
      [.array items, .reference identity body] run).1 = .ok best.2 := by
  rw [byKey_of_alike (fun few => congrArg Except.ok (extremeBy_of_few sized few)) derived kinds,
    extremeBy_of_extreme sized found]

variable (numbers : ∀ k ∈ keys, k.isNaN = false) (nonempty : items ≠ []) {sorted : List Value}
include numbers nonempty

theorem minBy_eq_head (ascending : StablySorted Before keys items sorted) :
    ∃ lowest, (minBy evaluate [.array items, .reference identity body] run).1 = .ok lowest.2 ∧
      sorted.head? = some lowest.2 ∧ Earliest (fun p q => p.1.Before q.1) (keys.zip items) lowest := by
  obtain ⟨lowest, scanned, earliest⟩ := extreme_lt_earliest kinds numbers (zip_ne_nil sized nonempty)
  obtain ⟨first, head, sortedFirst⟩ :=
    ascending.head_earliest sized nonempty (fun _ _ => Before.not_before) fun _ _ => Level.not_before
  obtain rfl := earliest.unique sortedFirst
  exact ⟨lowest, extremeBy_eq evaluate derived sized kinds scanned, head, earliest⟩

theorem maxBy_eq_getLast (descending : StablySorted Before keys.reverse items.reverse sorted) :
    ∃ highest, (maxBy evaluate [.array items, .reference identity body] run).1 = .ok highest.2 ∧
      sorted.getLast? = some highest.2 ∧ Earliest (fun p q => q.1.Before p.1) (keys.zip items) highest := by
  obtain ⟨highest, scanned, earliest⟩ := extreme_gt_earliest kinds numbers (zip_ne_nil sized nonempty)
  obtain ⟨last, head, sortedLast⟩ := (descending.reverse sized).head_earliest sized nonempty
    (fun _ _ => Before.not_before) fun _ _ same => same.symm.not_before
  obtain rfl := earliest.unique sortedLast
  rw [List.head?_reverse] at head
  exact ⟨highest, extremeBy_eq evaluate derived sized kinds scanned, head, earliest⟩

end Function

namespace Evaluator

open JsonQuery.Function SortKey

/-- If an expression gives every element the same key in all of these calls, and none is a NaN, `min_by`
finds the first of the elements that `sort_by` sorted, and `max_by` the last of those that were turned
round before. Each is the earliest that no other beats. From fewer than two elements no keys are
derived. -/
theorem extremes_of_sorted {ev : Evaluator}
    (builtin : ∀ b ∈ [Builtin.reverse, .sortBy, .minBy, .maxBy], ev.registry.get? b.name = none)
    {v : Value} {items : List Value} (sequence : v.sequence? = some items) (nonempty : items ≠ [])
    (identity : Identity) (body : Expr) (root : Value) {keys : List SortKey}
    (sized : keys.length = items.length) (numbers : ∀ k ∈ keys, k.isNaN = false)
    {turning least greatest sorting sorting' : Run} {turned sorted sorted' : Value}
    (turns : (ev.call Builtin.reverse.name [v] root turning).1 = .ok turned)
    (sorts : (ev.call Builtin.sortBy.name [v, .reference identity body] root sorting).1 = .ok sorted)
    (sorts' : (ev.call Builtin.sortBy.name [turned, .reference identity body] root sorting').1 = .ok sorted')
    (steady : 2 ≤ items.length →
      (∀ run ∈ [least, greatest, sorting], Gives (ev.execute body · root) items keys run) ∧
      Gives (ev.execute body · root) items.reverse keys.reverse sorting') :
    ∃ up down lowest highest, sorted = .array up ∧ sorted' = .array down ∧
      ((ev.call Builtin.minBy.name [v, .reference identity body] root least).1 = .ok lowest.2 ∧
        up.head? = some lowest.2 ∧ Earliest (fun p q => p.1.Before q.1) (keys.zip items) lowest) ∧
      (ev.call Builtin.maxBy.name [v, .reference identity body] root greatest).1 = .ok highest.2 ∧
        down.getLast? = some highest.2 ∧
        Earliest (fun p q => q.1.Before p.1) (keys.zip items) highest := by
  obtain rfl : turned = .array items.reverse := by
    rw [call_eq_apply (builtin _ (by simp)) (Parameter.resolve_one rfl (Parameter.check_array sequence))] at turns
    cases turns
    rfl
  have keyed {b} (mem) (parameters) (v items) (sequence : Value.sequence? v = some items) :=
    call_keyed_eq_apply (builtin b mem) parameters sequence identity body root
  rw [keyed (by simp) rfl v items sequence] at sorts
  rw [keyed (by simp) rfl _ items.reverse rfl] at sorts'
  rw [keyed (by simp) rfl v items sequence, keyed (by simp) rfl v items sequence]
  let evaluate : Evaluate := fun e v => ev.execute e v root
  have given (run) (mem : run ∈ [least, greatest, sorting]) (several : 2 ≤ items.length) :
      Gives (evaluate body) items keys run := (steady several).1 run mem
  have given' (several : 2 ≤ items.reverse.length) :
      Gives (evaluate body) items.reverse keys.reverse sorting' := (steady (by simpa using several)).2
  obtain ⟨kinds, up, rfl, ascending⟩ :=
    sortBy_of_ok evaluate (given sorting (by simp)) sized numbers sorts
  obtain ⟨-, down, rfl, descending⟩ :=
    sortBy_of_ok evaluate given' (by simpa using sized) (by simpa using numbers) sorts'
  obtain ⟨lowest, minimal⟩ :=
    minBy_eq_head evaluate (given least (by simp)) sized kinds numbers nonempty ascending
  obtain ⟨highest, maximal⟩ :=
    maxBy_eq_getLast evaluate (given greatest (by simp)) sized kinds numbers nonempty descending
  exact ⟨up, down, lowest, highest, rfl, rfl, minimal, maximal⟩

def byWord (b : Builtin) (rows : Value) : Except Fault Value :=
  (Evaluator.call {} b.name [rows, .reference (.given 1) (.index 0)] .null (.seeded 0)).1

theorem extremes_wordRows :
    ∃ up down lowest highest,
      byWord .sortBy (.array wordRows) = .ok (.array up) ∧
      byWord .sortBy (.array wordRows.reverse) = .ok (.array down) ∧
      byWord .minBy (.array wordRows) = .ok lowest ∧ up.head? = some lowest ∧
      byWord .maxBy (.array wordRows) = .ok highest ∧ down.getLast? = some highest := by
  have gives_turned : Gives (Evaluator.execute {} (.index 0) · .null) wordRows.reverse words.reverse (.seeded 0) :=
    ⟨_, [.string "b", .string "a", .string "b"], rfl, rfl⟩
  have sorts {rows keys} (long : 2 ≤ rows.length) (kinds : OneKind keys)
      (numbers : ∀ k ∈ keys, k.isNaN = false)
      (gives : Gives (Evaluator.execute {} (.index 0) · .null) rows keys (.seeded 0)) :
      ∃ sorted, byWord .sortBy (.array rows) = .ok sorted := by
    obtain ⟨sorted, result, -⟩ := sortByKeys_stablySorted kinds numbers .merging gives.length_eq
    rw [byWord, call_keyed_eq_apply rfl rfl rfl, Builtin.apply, sortBy, byKey_of_gives long gives kinds, result]
    exact ⟨_, rfl⟩
  obtain ⟨sorted, upward⟩ := sorts (by decide) oneKind_words number_words gives_words
  obtain ⟨sorted', downward⟩ := sorts (by decide) oneKind_words (by simpa using number_words) gives_turned
  have turns : (Evaluator.call {} Builtin.reverse.name [.array wordRows] .null (.seeded 0)).1 =
      .ok (.array wordRows.reverse) := rfl
  have steady : 2 ≤ wordRows.length →
      (∀ run ∈ [Run.seeded 0, .seeded 0, .seeded 0],
        Gives (Evaluator.execute {} (.index 0) · .null) wordRows words run) ∧
      Gives (Evaluator.execute {} (.index 0) · .null) wordRows.reverse words.reverse (.seeded 0) :=
    fun _ => ⟨by simpa using gives_words, gives_turned⟩
  obtain ⟨up, down, lowest, highest, rfl, rfl, ⟨minimal, head, -⟩, maximal, last, -⟩ :=
    extremes_of_sorted (fun _ _ => rfl) rfl (List.cons_ne_nil _ _) (.given 1) (.index 0) .null rfl number_words
      turns upward downward steady
  exact ⟨up, down, _, _, upward, downward, minimal, head, maximal, last⟩

def letters : List Value := [.string "a", .string "b"]

/-- The letter that comes first when both are shuffled. -/
def drawnLetter : Expr := .subexpression (.call Builtin.shuffle.name [.root]) (.index 0)

def byDrawnLetter (b : Builtin) (items : List Value) : Except Fault Value :=
  (Evaluator.call {} b.name [.array items, .reference (.given 0) drawnLetter] (.array letters) (.seeded 3)).1

/-- Keys that are drawn anew are not those that the elements had when they were sorted. -/
theorem maxBy_drawnLetter :
    let evaluate := (Evaluator.execute {} drawnLetter · (.array letters))
    Gives evaluate letters [.text "b", .text "a"] (.seeded 3) ∧
    Gives evaluate letters.reverse [.text "b", .text "a"] (.seeded 3) ∧
    (Evaluator.call {} Builtin.reverse.name [.array letters] (.array letters) (.seeded 3)).1 =
      .ok (.array letters.reverse) ∧
    byDrawnLetter .sortBy letters = .ok (.array letters.reverse) ∧
    byDrawnLetter .sortBy letters.reverse = .ok (.array letters) ∧
    letters.getLast? = some (.string "b") ∧ byDrawnLetter .maxBy letters = .ok (.string "a") := by
  intro evaluate
  have drawn : Gives evaluate letters [.text "b", .text "a"] (.seeded 3) :=
    ⟨_, [.string "b", .string "a"], rfl, rfl⟩
  have drawn' : Gives evaluate letters.reverse [.text "b", .text "a"] (.seeded 3) :=
    ⟨_, [.string "b", .string "a"], rfl, rfl⟩
  have kinds : OneKind [.text "b", .text "a"] := ⟨.string, by simp [kind]⟩
  have exchanged (x y : Value) :
      sortByKeys .merging [x, y] [.text "b", .text "a"] = .ok (.array [y, x]) := rfl
  have sorted {x y} (drawn : Gives evaluate [x, y] [.text "b", .text "a"] (.seeded 3)) :
      byDrawnLetter .sortBy [x, y] = .ok (.array [y, x]) := by
    rw [byDrawnLetter, call_keyed_eq_apply rfl rfl rfl, Builtin.apply, sortBy,
      byKey_of_gives (by simp) drawn kinds]
    exact exchanged x y
  have greatest : byDrawnLetter .maxBy letters = .ok (.string "a") := by
    rw [byDrawnLetter, call_keyed_eq_apply rfl rfl rfl, Builtin.apply, maxBy,
      byKey_of_gives (by decide) drawn kinds]
    rfl
  exact ⟨drawn, drawn', rfl, sorted drawn, sorted drawn', rfl, greatest⟩

end Evaluator

end JsonQuery

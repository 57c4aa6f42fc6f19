import JsonQuery.Proofs.Balance
import JsonQuery.Proofs.Order.Distinct
import JsonQuery.Proofs.Order.Extreme

/-!
Functions of the order of elements that are keys themselves. Each has a loop of its own, over numbers
with their values or over texts. It gives the result of the loop over keys of the function that derives
them, for which the current value is the key.
-/
namespace JsonQuery

namespace Function

open SortKey

section Loops

variable {α : Type} {wanted : Ordering}

theorem foldl_better_map {β : Type} (f : α → β) (key : β → SortKey) (first : α) (rest : List α) :
    (rest.map f).foldl (better wanted key) (f first) = f (rest.foldl (better wanted fun x => key (f x)) first) := by
  induction rest generalizing first with
  | nil => rfl
  | cons x rest ih =>
    have here : better wanted key (f first) (f x) = f (better wanted (fun x => key (f x)) first x) :=
      (apply_ite f _ _ _).symm
    rw [List.map_cons, List.foldl_cons, List.foldl_cons, here, ih]

theorem extreme_map {β : Type} (f : α → β) (key : β → SortKey) (xs : List α) :
    extreme wanted key (xs.map f) = (extreme wanted (fun x => key (f x)) xs).map f := by
  cases xs with
  | nil => rfl
  | cons first rest => exact congrArg some (foldl_better_map f key first rest)

/-- A scan that begins with no element at all. -/
theorem foldl_all_eq_extreme {key : α → SortKey} {beats : α → α → Bool}
    (agrees : ∀ x y, beats x y = true ↔ (key x).order (key y) = wanted) (xs : List α) :
    xs.foldl (fun best x => if best.all (beats x) then some x else best) none = extreme wanted key xs := by
  cases xs with
  | nil => rfl
  | cons first rest =>
    rw [List.foldl_cons]
    change rest.foldl _ (some first) = some (rest.foldl _ first)
    induction rest generalizing first with
    | nil => rfl
    | cons x rest ih =>
      have here : (if (some first).all (beats x) then some x else some first) =
          some (better wanted key first x) := by
        simp only [better, Option.all_some, agrees]
        exact (apply_ite some _ _ _).symm
      rw [List.foldl_cons, List.foldl_cons, here, ih]

/-- A loop that computes something of each element as it goes is one over what has been computed. -/
theorem foldlM_of_mapM {ε β γ : Type} {f : α → Except ε β} {next : γ → α → Except ε γ} {step : γ → β → γ}
    (each : ∀ c x, next c x = (f x).map (step c)) {xs : List α} {ys : List β} (h : xs.mapM f = .ok ys) (c : γ) :
    xs.foldlM next c = .ok (ys.foldl step c) := by
  induction xs generalizing ys c with
  | nil =>
    cases h
    rfl
  | cons x xs ih =>
    rw [List.mapM_cons] at h
    cases here : f x <;> rw [here] at h
    · cases h
    · cases more : xs.mapM f <;> rw [more] at h <;> cases h
      rw [List.foldlM_cons, each, here]
      exact ih more _

variable (item : α → Value) (key : α → SortKey) (xs : List α)

theorem extremeBy_map :
    extremeBy wanted (xs.map item) (xs.map key) = ((extreme wanted key xs).map item).getD .null := by
  cases xs with
  | nil => rfl
  | cons first rest =>
    have sized : ((first :: rest).map key).length = ((first :: rest).map item).length := by simp
    have found : extreme wanted Prod.fst (((first :: rest).map key).zip ((first :: rest).map item)) =
        (extreme wanted key (first :: rest)).map fun x => (key x, item x) := by
      rw [List.zip_map', extreme_map]
    exact extremeBy_of_extreme sized found

theorem sortByKeys_map (sorter : Sorter) :
    sortByKeys sorter (xs.map item) (xs.map key) =
      sortedArray ((sorter.sort (fun a b => (key a).order (key b)) xs).map (List.map item)) := by
  have size : xs.toArray.size = (xs.map key).toArray.size := by simp
  have places : sorter.places? (orderAt (xs.map key).toArray) =
      (sorter.places? fun i j => (key xs.toArray[i]).order (key xs.toArray[j])).map
        (List.map (Fin.cast size)) := sorter.places?_cast size (by simp [orderAt])
  rw [sortByKeys_eq, places, Sorter.sort, Option.map_map, Option.map_map]
  congr 2
  funext places
  rw [Function.comp_apply, Function.comp_apply, List.map_map, List.map_map]
  refine List.map_congr_left fun i _ => ?_
  have bound : i.val < xs.length := i.isLt
  simp [bound]

end Loops

/-- An array of elements that are keys themselves: of numbers with their values, or of texts. -/
inductive KeyedBy : Slot → List Value → List SortKey → Prop
  | numbers {ns : List Number} {pairs : List (Double × Number)} (each : ∀ b, valued b ns = .ok pairs) :
    KeyedBy (.numbers ns) (pairs.map fun p => .number p.2) (pairs.map fun p => .number p.1)
  | strings (ss : List String) : KeyedBy (.strings ss) (ss.map .string) (ss.map .text)

namespace KeyedBy

variable {slot : Slot} {b : Builtin} {items : List Value} {keys : List SortKey}

theorem valued_cons {n : Number} {d : Double} (value : n.toDouble? = some d) (ns : List Number) :
    valued b (n :: ns) = (valued b ns).map ((d, n) :: ·) := by
  rw [valued, List.mapM_cons, numericValue, value]
  rfl

theorem of_numbers {ns : List Number} (numbers : items.mapM Value.number? = some ns)
    (each : items.map Value.key? = keys.map some) : KeyedBy (.numbers ns) items keys := by
  suffices ∃ pairs : List (Double × Number), (∀ b, valued b ns = .ok pairs) ∧
      items = pairs.map (fun p => .number p.2) ∧ keys = pairs.map fun p => .number p.1 by
    obtain ⟨pairs, valued, rfl, rfl⟩ := this
    exact .numbers valued
  induction items generalizing ns keys with
  | nil =>
    cases numbers
    cases keys with
    | nil => exact ⟨[], fun _ => rfl, rfl, rfl⟩
    | cons => cases each
  | cons v rest ih =>
    rw [List.mapM_cons] at numbers
    obtain ⟨n, here, numbers⟩ := Option.bind_eq_some_iff.1 numbers
    obtain ⟨more, there, numbers⟩ := Option.bind_eq_some_iff.1 numbers
    cases numbers
    cases v <;> cases here
    cases keys with
    | nil => cases each
    | cons k ks =>
      obtain ⟨key, others⟩ := List.cons.inj each
      obtain ⟨d, value, rfl⟩ := Option.map_eq_some_iff.1 key
      obtain ⟨pairs, later, rfl, rfl⟩ := ih there others
      refine ⟨(d, n) :: pairs, fun b => ?_, rfl, rfl⟩
      rw [valued_cons value, later]
      rfl

theorem of_strings {ss : List String} (strings : items.mapM Value.string? = some ss)
    (each : items.map Value.key? = keys.map some) : KeyedBy (.strings ss) items keys := by
  suffices items = ss.map .string ∧ keys = ss.map .text by
    obtain ⟨rfl, rfl⟩ := this
    exact .strings ss
  induction items generalizing ss keys with
  | nil =>
    cases strings
    cases keys with
    | nil => exact ⟨rfl, rfl⟩
    | cons => cases each
  | cons v rest ih =>
    rw [List.mapM_cons] at strings
    obtain ⟨s, here, strings⟩ := Option.bind_eq_some_iff.1 strings
    obtain ⟨more, there, strings⟩ := Option.bind_eq_some_iff.1 strings
    cases strings
    cases v <;> cases here
    cases keys with
    | nil => cases each
    | cons k ks =>
      obtain ⟨key, others⟩ := List.cons.inj each
      cases key
      obtain ⟨rfl, rfl⟩ := ih there others
      exact ⟨rfl, rfl⟩

theorem extremeNumber_eq {wanted : Ordering} (strict : wanted ≠ .eq) {ns : List Number}
    {pairs : List (Double × Number)} (each : valued b ns = .ok pairs) :
    extremeNumber b wanted ns = .ok (extreme wanted (fun p => .number p.1) pairs) := by
  have agrees (p q : Double × Number) : decide (p.1.compare? q.1 = some wanted) = true ↔
      (SortKey.number p.1).order (.number q.1) = wanted := by
    rw [decide_eq_true_iff, SortKey.order]
    cases p.1.compare? q.1 with
    | none => simp [strict.symm]
    | some o => simp
  rw [← foldl_all_eq_extreme agrees]
  refine foldlM_of_mapM (fun best n => ?_) each none
  cases numericValue b n <;> rfl

theorem extremum_eq {wanted : Ordering} (strict : wanted ≠ .eq) (h : KeyedBy slot items keys) :
    extremum b wanted [slot] = .ok (extremeBy wanted items keys) := by
  cases h with
  | numbers each =>
    rw [extremum, extremeNumber_eq strict (each b), extremeBy_map]
    cases extreme wanted _ _ <;> rfl
  | strings ss =>
    have agrees (s t : String) : decide (compare s t = wanted) = true ↔
        (SortKey.text s).order (.text t) = wanted := decide_eq_true_iff
    rw [extremum, extremeText, foldl_all_eq_extreme agrees, extremeBy_map]

theorem sort_eq (sorter : Sorter) (h : KeyedBy slot items keys) :
    Function.sort sorter [slot] = sortByKeys sorter items keys := by
  cases h with
  | numbers each =>
    rw [Function.sort, each, sortByKeys_map]
    rfl
  | strings ss =>
    rw [Function.sort, sortByKeys_map]
    rfl

theorem keyed_eq (h : KeyedBy slot items keys) : keyed b [slot] = .ok (keys.zip items) := by
  cases h with
  | numbers each =>
    rw [List.zip_map', keyed, List.head?_cons]
    dsimp only
    rw [each]
    rfl
  | strings ss => rw [List.zip_map']; rfl

theorem dedup_eq (h : KeyedBy slot items keys) : dedup [slot] = .ok (.array (distinctBy items keys)) := by
  rw [dedup, h.keyed_eq, distinctBy_eq]
  rfl

end KeyedBy

variable {items : List Value} {keys : List SortKey}

theorem numbers_or_strings (each : items.map Value.key? = keys.map some) (kinds : OneKind keys) :
    (∃ ns, items.mapM Value.number? = some ns) ∨ ∃ ss, items.mapM Value.string? = some ss := by
  obtain ⟨kind, all⟩ := kinds
  have keyed : ∀ v ∈ items, ∃ k, v.key? = some k ∧ k.kind = kind := by
    intro v hv
    obtain ⟨k, mem, key⟩ := List.mem_map.1 (each ▸ List.mem_map_of_mem hv)
    exact ⟨k, key.symm, all k mem⟩
  by_cases number : kind = .number
  · refine .inl (exists_mapM_iff.2 fun v hv => ?_)
    obtain ⟨k, key, kinds⟩ := keyed v hv
    cases v with
    | number n => exact ⟨n, rfl⟩
    | string s =>
      cases key
      cases number ▸ kinds
    | _ => cases key
  · refine .inr (exists_mapM_iff.2 fun v hv => ?_)
    obtain ⟨k, key, kinds⟩ := keyed v hv
    cases v with
    | number n =>
      obtain ⟨d, value, rfl⟩ := Option.map_eq_some_iff.1 key
      exact absurd kinds.symm number
    | string s => exact ⟨s, rfl⟩
    | _ => cases key

end Function

namespace Parameter

open JsonQuery.Function SortKey

variable {v : Value} {items : List Value} {keys : List SortKey} {accepts : List TypeClass}

theorem check_own_keys (function : String) (both : ∀ c, c ∈ accepts ↔ c = .numbers ∨ c = .strings)
    (sequence : v.sequence? = some items) (each : items.map Value.key? = keys.map some)
    (kinds : OneKind keys) :
    ∃ slot, (Parameter.of accepts).check function 0 v = .ok slot ∧ KeyedBy slot items keys := by
  have numbers : TypeClass.numbers.admit? v =
      (items.mapM Value.number?).bind fun ns => some (.numbers ns) := by
    rw [TypeClass.admit?_numbers, sequence, Option.bind_some]
  have strings : TypeClass.strings.admit? v =
      (items.mapM Value.string?).bind fun ss => some (.strings ss) := by
    rw [TypeClass.admit?_strings, sequence, Option.bind_some]
  have admitted : (accepts.findSome? (·.admit? v)).isSome := by
    rw [List.findSome?_isSome_iff]
    rcases numbers_or_strings each kinds with ⟨ns, found⟩ | ⟨ss, found⟩
    · exact ⟨.numbers, (both _).2 (.inl rfl), by rw [numbers, found]; rfl⟩
    · exact ⟨.strings, (both _).2 (.inr rfl), by rw [strings, found]; rfl⟩
  obtain ⟨slot, found⟩ := Option.isSome_iff_exists.1 admitted
  refine ⟨slot, by rw [check, Parameter.of, found], ?_⟩
  obtain ⟨c, mem, found⟩ := List.exists_of_findSome?_eq_some found
  rcases (both c).1 mem with rfl | rfl
  · rw [numbers] at found
    obtain ⟨ns, numbers, found⟩ := Option.bind_eq_some_iff.1 found
    cases found
    exact .of_numbers numbers each
  · rw [strings] at found
    obtain ⟨ss, strings, found⟩ := Option.bind_eq_some_iff.1 found
    cases found
    exact .of_strings strings each

end Parameter

namespace Evaluator

open JsonQuery.Function SortKey

variable {ev : Evaluator} {v : Value} {items : List Value} {keys : List SortKey} {run run' : Run}

/-- Given room for one more level, elements are the keys that the current value gives them. -/
theorem gives_own_keys (each : items.map Value.key? = keys.map some) (root : Value)
    (room : run.depth < ev.maxDepth) : Gives (ev.execute .current · root) items keys run := by
  induction items generalizing keys run with
  | nil =>
    cases keys with
    | nil => exact ⟨run, derives_nil.2 ⟨rfl, rfl⟩⟩
    | cons => cases each
  | cons item rest ih =>
    cases keys with
    | nil => cases each
    | cons k ks =>
      obtain ⟨key, others⟩ := List.cons.inj each
      let between := { run with deepest := Nat.max run.deepest (run.depth + 1) }
      have here : ev.execute .current item root run = (.ok item, between) := by
        rw [execute_eq_nested]
        unfold Eval.nested
        rw [if_pos room]
        rfl
      have later : Gives (ev.execute .current · root) rest ks between := ih others room
      obtain ⟨after, there⟩ := later
      exact ⟨after, derives_cons.2 ⟨item, between, k, ks, here, key, rfl, there⟩⟩

theorem call_own_keys {plain : Builtin} {accepts : List TypeClass} {outcome : Except Fault Value}
    (builtin : ev.registry.get? plain.name = none) (parameters : plain.parameters = [.of accepts])
    (both : ∀ c, c ∈ accepts ↔ c = .numbers ∨ c = .strings)
    (sequence : v.sequence? = some items) (each : items.map Value.key? = keys.map some) (kinds : OneKind keys)
    (apply : ∀ evaluate slot, KeyedBy slot items keys →
      plain.apply ev.sorter evaluate [slot] = Eval.ofExcept outcome)
    (root : Value) (run : Run) : ev.call plain.name [v] root run = (outcome, run) := by
  obtain ⟨slot, checked, own⟩ := Parameter.check_own_keys plain.name both sequence each kinds
  have admitted : Parameter.resolve plain.name plain.parameters [v] = .ok [slot] := by
    rw [parameters]
    exact Parameter.resolve_one rfl checked
  rw [call_eq_apply builtin admitted, apply _ _ own]
  rfl

section Twin

variable (builtin : ∀ b : Builtin, ev.registry.get? b.name = none)
  (sequence : v.sequence? = some items) (each : items.map Value.key? = keys.map some)
  (kinds : OneKind keys) (room : run'.depth < ev.maxDepth) (identity : Identity) (root : Value)
include builtin sequence each kinds room

/-- A function of the elements and one that derives keys agree if they do the same with the elements and
their keys. -/
theorem agree_of_keyed {plain derived : Builtin} {accepts : List TypeClass}
    (parameters : plain.parameters = [.of accepts])
    (both : ∀ c, c ∈ accepts ↔ c = .numbers ∨ c = .strings)
    (parameters' : derived.parameters = [.of [.array], .of [.reference]])
    {few : List Value → Value} (many : List Value → List SortKey → Except Fault Value) {w : Value}
    (apply : ∀ evaluate slot, KeyedBy slot items keys →
      plain.apply ev.sorter evaluate [slot] = Eval.ofExcept (many items keys))
    (apply' : ∀ evaluate, derived.apply ev.sorter evaluate = byKey derived evaluate few many)
    (alike : items.length < 2 → many items keys = .ok (few items)) (succeeds : many items keys = .ok w) :
    ∃ w, (ev.call plain.name [v] root run).1 = .ok w ∧
      (ev.call derived.name [v, .reference identity .current] root run').1 = .ok w := by
  refine ⟨w, ?_, ?_⟩
  · rw [call_own_keys (builtin plain) parameters both sequence each kinds apply, succeeds]
  · rw [call_keyed_eq_apply (builtin derived) parameters' sequence, apply',
      byKey_of_alike alike (fun _ => gives_own_keys each root room) kinds, succeeds]

end Twin

def twins : List (Builtin × Builtin) :=
  [(.sort, .sortBy), (.dedup, .dedupBy), (.max, .maxBy), (.min, .minBy)]

/-- With the current value as the key and room for one more level, a function that derives keys gives
what its twin gives on elements that are all texts or all numbers with a value; for sorting, with none
that is a NaN. -/
theorem twins_agree (builtin : ∀ b : Builtin, ev.registry.get? b.name = none)
    (sequence : v.sequence? = some items) (each : items.map Value.key? = keys.map some) (kinds : OneKind keys)
    (room : run'.depth < ev.maxDepth) (identity : Identity) (root : Value) {plain derived : Builtin}
    (twin : (plain, derived) ∈ twins) (numbers : plain = .sort → ∀ k ∈ keys, k.isNaN = false) :
    ∃ w, (ev.call plain.name [v] root run).1 = .ok w ∧
      (ev.call derived.name [v, .reference identity .current] root run').1 = .ok w := by
  have sized : keys.length = items.length := by simpa using (congrArg List.length each).symm
  have agree {plain derived} := @agree_of_keyed ev v items keys run run' builtin sequence each kinds room
    identity root plain derived
  have extremes {wanted} (few : items.length < 2) :
      (.ok (extremeBy wanted items keys) : Except Fault Value) = .ok (items.head?.getD .null) :=
    congrArg Except.ok (extremeBy_of_few sized few)
  simp only [twins, List.mem_cons, Prod.mk.injEq, List.not_mem_nil, or_false] at twin
  rcases twin with ⟨rfl, rfl⟩ | ⟨rfl, rfl⟩ | ⟨rfl, rfl⟩ | ⟨rfl, rfl⟩
  · obtain ⟨sorted, succeeds, -⟩ := sortByKeys_stablySorted kinds (numbers rfl) ev.sorter sized
    exact agree rfl (by simp [or_comm]) rfl _ (fun _ _ own => congrArg Eval.ofExcept (own.sort_eq _))
      (fun _ => rfl) (sortByKeys_of_few kinds (numbers rfl) _ sized) succeeds
  · exact agree rfl (by simp [or_comm]) rfl (fun items keys => .ok (.array (distinctBy items keys)))
      (fun _ _ own => congrArg Eval.ofExcept own.dedup_eq) (fun _ => rfl)
      (fun few => by rw [distinctBy_of_few sized few]) rfl
  · exact agree rfl (by simp) rfl (fun items keys => .ok (extremeBy .gt items keys))
      (fun _ _ own => congrArg Eval.ofExcept (own.extremum_eq nofun)) (fun _ => rfl) extremes rfl
  · exact agree rfl (by simp) rfl (fun items keys => .ok (extremeBy .lt items keys))
      (fun _ _ own => congrArg Eval.ofExcept (own.extremum_eq nofun)) (fun _ => rfl) extremes rfl

def zeros : List Value :=
  [.number (.token "0"), .number (.double (.zero true)), .number (.double (.zero false))]

theorem sort_zeros :
    ∃ w, (Evaluator.call {} Builtin.sort.name [.array zeros] .null (.seeded 0)).1 = .ok w ∧
      (Evaluator.call {} Builtin.sortBy.name [.array zeros, .reference (.given 0) .current] .null (.seeded 0)).1 =
        .ok w := by
  have each : zeros.map Value.key? =
      [SortKey.number (.zero false), .number (.zero true), .number (.zero false)].map some := by
    decide +kernel
  exact twins_agree (fun _ => rfl) rfl each ⟨.number, by simp [kind]⟩ (by decide) (.given 0) .null
    (by simp [twins]) (fun _ => by simp [isNaN, Double.isNaN, Double.zero])

end Evaluator

end JsonQuery

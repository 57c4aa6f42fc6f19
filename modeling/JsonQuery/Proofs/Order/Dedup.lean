import JsonQuery.Proofs.Document.Coincidence
import JsonQuery.Proofs.Order.Distinct
import JsonQuery.Proofs.Order.Twin

/-!
Elements without duplicates. The key of a number is its double, while equality compares integers exactly.
So an element goes not only if it equals one before it, but also if it coincides with one.
-/
namespace JsonQuery

theorem Number.Decoded.same_key_iff {a b : Number} {d e : Double} (ha : a.Decoded) (left : a.toDouble? = some d)
    (right : b.toDouble? = some e) : (SortKey.number d).Same (.number e) ↔ a.Level b := by
  obtain ⟨x, place⟩ := ha.exists_place?
  have number : d.rank? = some x := by simpa [place?, left] using place
  have notNaN : d.isNaN = false := by
    cases d with
    | nan => cases number
    | infinite | finite => rfl
  simp [SortKey.Same, notNaN, Double.same_iff_rank, Level, place?, left, right]

namespace Value

def Coincide (v w : Value) : Prop := ∃ a ∈ v.number?, ∃ b ∈ w.number?, a.Coincide b

def keyKinds : List Kind := [.number, .string]

variable {v w : Value} {k l : SortKey}

theorem kind_of_key? (key : v.key? = some k) : k.kind = v.kind := by
  cases v with
  | number n =>
    obtain ⟨d, -, rfl⟩ := Option.map_eq_some_iff.1 key
    rfl
  | string s =>
    cases key
    rfl
  | _ => cases key

namespace Decoded

theorem exists_key? (h : v.Decoded) (keyed : v.kind ∈ keyKinds) : ∃ k, v.key? = some k := by
  cases h with
  | number decoded =>
    obtain ⟨x, place⟩ := decoded.exists_place?
    obtain ⟨d, double, -⟩ := Option.bind_eq_some_iff.1 place
    exact ⟨.number d, by simp [key?, double]⟩
  | string s => exact ⟨.text s, rfl⟩
  | null | bool | array | object => simp [keyKinds, Value.kind] at keyed

/-- Values of documents have the same key if they are equal or coincide. -/
theorem same_key_iff (hv : v.Decoded) (hw : w.Decoded) (left : v.key? = some k) (right : w.key? = some l) :
    k.Same l ↔ v.same w = true ∨ v.Coincide w := by
  cases hv with
  | number ha =>
    obtain ⟨d, double, rfl⟩ := Option.map_eq_some_iff.1 left
    cases hw with
    | number hb =>
      obtain ⟨e, double', rfl⟩ := Option.map_eq_some_iff.1 right
      rw [ha.same_key_iff double double', Number.level_iff ha hb]
      simp [same, Coincide, number?]
    | string t =>
      cases right
      simp [SortKey.Same, same, Coincide, number?]
    | null | bool | array | object => cases right
  | string s =>
    cases left
    cases hw with
    | number hb =>
      obtain ⟨e, double', rfl⟩ := Option.map_eq_some_iff.1 right
      simp [SortKey.Same, same, Coincide, number?]
    | string t =>
      cases right
      simp [SortKey.Same, same, Coincide, number?]
    | null | bool | array | object => cases right
  | null | bool | array | object => cases left

end Decoded

end Value

def Earlier (related : Value → Value → Prop) (items : List Value) (i : Nat) : Prop :=
  ∃ j < i, ∃ v ∈ items[j]?, ∃ w ∈ items[i]?, related v w

namespace Earlier

variable {related related' : Value → Value → Prop} {items : List Value} {i : Nat}

theorem lt_length (h : Earlier related items i) : i < items.length := by
  obtain ⟨-, -, -, -, w, there, -⟩ := h
  exact (List.getElem?_eq_some_iff.1 there).1

theorem or_iff : Earlier (fun v w => related v w ∨ related' v w) items i ↔
    Earlier related items i ∨ Earlier related' items i := by
  simp only [Earlier, and_or_left, exists_or]

end Earlier

namespace Evaluator

open JsonQuery.Function SortKey

variable {ev : Evaluator} {items : List Value} {keys : List SortKey} {kind : Kind}

theorem exists_keys (decoded : ∀ v ∈ items, v.Decoded) (keyed : kind ∈ Value.keyKinds)
    (kinds : ∀ v ∈ items, v.kind = kind) :
    ∃ keys : List SortKey, items.map Value.key? = keys.map some ∧ OneKind keys := by
  refine ⟨items.filterMap Value.key?, ?_, kind, fun k mem => ?_⟩
  · rw [List.map_filterMap_some_eq_filter_map_isSome, List.filter_eq_self.2]
    intro key mem
    obtain ⟨v, there, rfl⟩ := List.mem_map.1 mem
    exact Option.isSome_iff_exists.2 ((decoded v there).exists_key? (kinds v there ▸ keyed))
  · obtain ⟨v, there, key⟩ := List.mem_filterMap.1 mem
    exact (Value.kind_of_key? key).trans (kinds v there)

theorem sameAt_iff {i j : Nat} (decoded : ∀ v ∈ items, v.Decoded) (each : items.map Value.key? = keys.map some) :
    SameAt keys j i ↔ ∃ v ∈ items[j]?, ∃ w ∈ items[i]?, v.same w = true ∨ v.Coincide w := by
  have key (i : Nat) : items[i]?.map Value.key? = keys[i]?.map some := by
    rw [← List.getElem?_map, each, List.getElem?_map]
  have same {v w : Value} {k l : SortKey} (hv : v ∈ items[j]?) (hw : w ∈ items[i]?) (left : v.key? = some k)
      (right : w.key? = some l) : k.Same l ↔ v.same w = true ∨ v.Coincide w :=
    (decoded v (List.mem_of_getElem? hv)).same_key_iff (decoded w (List.mem_of_getElem? hw)) left right
  constructor
  · rintro ⟨k, hk, l, hl, equal⟩
    obtain ⟨v, hv, left⟩ := Option.map_eq_some_iff.1 ((key j).trans (congrArg _ hk))
    obtain ⟨w, hw, right⟩ := Option.map_eq_some_iff.1 ((key i).trans (congrArg _ hl))
    exact ⟨v, hv, w, hw, (same hv hw left right).1 equal⟩
  · rintro ⟨v, hv, w, hw, related⟩
    obtain ⟨k, hk, left⟩ := Option.map_eq_some_iff.1 ((key j).symm.trans (congrArg _ hv))
    obtain ⟨l, hl, right⟩ := Option.map_eq_some_iff.1 ((key i).symm.trans (congrArg _ hw))
    exact ⟨k, hk, l, hl, (same hv hw left.symm right.symm).2 related⟩

/-- On an array of a document whose elements are all numbers, or all texts, `dedup` keeps the elements
that neither equal nor coincide with one before them. So it keeps exactly those that equal none before
them if every element that coincides with one before it also equals one before it. -/
theorem dedup_firsts (builtin : ev.registry.get? Builtin.dedup.name = none)
    (inside : (Value.array items).InDocument) (keyed : kind ∈ Value.keyKinds) (kinds : ∀ v ∈ items, v.kind = kind)
    (root : Value) (run : Run) :
    ∃ (places : List Nat) (kept : List Value),
      ev.call Builtin.dedup.name [.array items] root run = (.ok (.array kept), run) ∧
      places.Pairwise (· < ·) ∧ kept.map some = places.map (items[·]?) ∧
      (∀ i, i ∈ places ↔ i < items.length ∧
        ¬ Earlier (fun v w => v.same w = true) items i ∧ ¬ Earlier Value.Coincide items i) ∧
      ((∀ i, i ∈ places ↔ i < items.length ∧ ¬ Earlier (fun v w => v.same w = true) items i) ↔
        ∀ i, Earlier Value.Coincide items i → Earlier (fun v w => v.same w = true) items i) := by
  have decoded : ∀ v ∈ items, v.Decoded := by
    cases inside.decoded with
    | array each => exact each
  obtain ⟨keys, each, alike⟩ := exists_keys decoded keyed kinds
  have sized : keys.length = items.length := by simpa using (congrArg List.length each).symm
  obtain ⟨places, firsts, -⟩ := distinctAfter_keepsFirsts sized
  have stays (i : Nat) : i ∈ places ↔ i < items.length ∧
      ¬ Earlier (fun v w => v.same w = true) items i ∧ ¬ Earlier Value.Coincide items i := by
    rw [firsts.firsts, ← not_or, ← Earlier.or_iff]
    simp only [sameAt_iff decoded each, Earlier, not_exists, not_and]
  refine ⟨places, _, ?_, firsts.ascending, firsts.gathered, stays, fun exact i together => ?_, fun covered i => ?_⟩
  · rw [call_own_keys builtin rfl (by simp [or_comm]) rfl each alike
      fun _ _ own => congrArg Eval.ofExcept own.dedup_eq, distinctBy_eq]
  · by_contra fresh
    have there := (exact i).2 ⟨together.lt_length, fresh⟩
    exact ((stays i).1 there).2.2 together
  · rw [stays, and_congr_right_iff]
    exact fun _ => ⟨And.left, fun fresh => ⟨fresh, fun together => fresh (covered i together)⟩⟩

theorem dedup_neighbours :
    ∃ (places : List Nat) (kept : List Value),
      Evaluator.call {} Builtin.dedup.name [.array (Value.neighbours.map .ofInt)] .null (.seeded 0) =
        (.ok (.array kept), .seeded 0) ∧
      kept.map some = places.map ((Value.neighbours.map .ofInt)[·]?) ∧ 1 ∉ places := by
  have builtin : ({} : Evaluator).registry.get? Builtin.dedup.name = none := rfl
  have keyed : Kind.number ∈ Value.keyKinds := by decide
  obtain ⟨places, kept, result, -, gathered, stays, -⟩ :=
    dedup_firsts builtin Value.inDocument_neighbours keyed (by simp [Value.ofInt, Value.kind]) .null (.seeded 0)
  have earlier : Earlier Value.Coincide (Value.neighbours.map .ofInt) 1 :=
    ⟨0, by decide, _, rfl, _, rfl, _, rfl, _, rfl, Value.coincide_neighbours⟩
  exact ⟨places, kept, result, gathered, fun there => ((stays 1).1 there).2.2 earlier⟩

/-- An element that no element before it equals goes nevertheless: it is another integer with the same
double. -/
theorem not_dedup_firsts :
    let odd := Value.ofInt 9007199254740993
    let even := Value.ofInt 9007199254740992
    (Value.array [odd, even]).InDocument ∧ odd.same even = false ∧
      Evaluator.call {} Builtin.dedup.name [.array [odd, even]] .null (.seeded 0) =
        (.ok (.array [odd]), .seeded 0) := by
  intro odd even
  have read : Value.read? .nearest "[9007199254740993,9007199254740992]" = some (.array [odd, even]) := by rfl
  have each : [odd, even].map Value.key? =
      [SortKey.number (.ofInt 9007199254740993), .number (.ofInt 9007199254740992)].map some := by
    decide +kernel
  have level : (SortKey.number (.ofInt 9007199254740992)).canonical =
      (SortKey.number (.ofInt 9007199254740993)).canonical := by
    decide +kernel
  refine ⟨Value.inDocument_of_read? read, by decide +kernel, ?_⟩
  rw [@call_own_keys {} _ _ _ .dedup _ _ rfl rfl (by simp [or_comm]) rfl each ⟨.number, by simp [kind]⟩
    fun _ _ own => congrArg Eval.ofExcept own.dedup_eq]
  simp [distinctBy, distinctAfter, level]

end Evaluator

end JsonQuery

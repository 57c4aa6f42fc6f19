import JsonQuery.Proofs.Document.Coincidence

/-!
Comparisons of numbers. An order compares places, and equality compares integers exactly. On numbers of
documents that do not coincide both amount to comparing the rationals, so they agree with each other.
-/
namespace JsonQuery

def Comparison.Holds : Comparison → ℚ → ℚ → Prop
  | .equal, q, r => q = r
  | .notEqual, q, r => q ≠ r
  | .less, q, r => q < r
  | .lessOrEqual, q, r => q ≤ r
  | .greater, q, r => r < q
  | .greaterOrEqual, q, r => r ≤ q

theorem Comparison.existsUnique_holds (q r : ℚ) :
    ∃! op, op ∈ [Comparison.less, .equal, .greater] ∧ op.Holds q r := by
  rcases lt_trichotomy q r with less | rfl | greater
  · refine ⟨.less, ⟨by simp, less⟩, fun op ⟨mem, holds⟩ => ?_⟩
    cases op <;> simp_all [Holds, less.ne, less.not_gt]
  · refine ⟨.equal, ⟨by simp, rfl⟩, fun op ⟨mem, holds⟩ => ?_⟩
    cases op <;> simp_all [Holds]
  · refine ⟨.greater, ⟨by simp, greater⟩, fun op ⟨mem, holds⟩ => ?_⟩
    cases op <;> simp_all [Holds, greater.ne', greater.not_gt]

namespace Evaluator

def Finds (op : Comparison) (a b : Number) : Prop := compare op (.number a) (.number b) = .ok (.bool true)

variable {a b : Number} {x y : Int}

theorem finds_equal_iff : Finds .equal a b ↔ a.same b = true := by
  simp [Finds, compare, Value.same]

theorem finds_notEqual_iff : Finds .notEqual a b ↔ a.same b = false := by
  simp [Finds, compare, Value.same]

section Order

variable (left : a.place? = some x) (right : b.place? = some y)

include left right

theorem finds_less_iff : Finds .less a b ↔ x < y := by
  obtain ⟨d, double, rank⟩ := Option.bind_eq_some_iff.1 left
  obtain ⟨e, double', rank'⟩ := Option.bind_eq_some_iff.1 right
  simp [Finds, compare, Value.coerce?, double, double', Double.less_iff, rank, rank']

theorem finds_lessOrEqual_iff : Finds .lessOrEqual a b ↔ x ≤ y := by
  obtain ⟨d, double, rank⟩ := Option.bind_eq_some_iff.1 left
  obtain ⟨e, double', rank'⟩ := Option.bind_eq_some_iff.1 right
  rw [Int.le_iff_lt_or_eq]
  simp [Finds, compare, Value.coerce?, double, double', Double.lessOrEqual, Double.less_iff,
    Double.same_iff_rank, rank, rank', @eq_comm _ y]

theorem finds_greater_iff : Finds .greater a b ↔ y < x := by
  rw [← finds_less_iff right left]
  unfold Finds compare
  cases (Value.number a).coerce? <;> cases (Value.number b).coerce? <;> simp

theorem finds_greaterOrEqual_iff : Finds .greaterOrEqual a b ↔ y ≤ x := by
  rw [← finds_lessOrEqual_iff right left]
  unfold Finds compare
  cases (Value.number a).coerce? <;> cases (Value.number b).coerce? <;> simp

end Order

/-- Numbers of documents that do not coincide are compared exactly. -/
theorem finds_iff_holds (ha : a.Decoded) (hb : b.Decoded) {q r : ℚ} (value : a.rational? = some q)
    (value' : b.rational? = some r) (together : ¬ a.Coincide b) (op : Comparison) : Finds op a b ↔ op.Holds q r := by
  obtain ⟨x, left⟩ := ha.exists_place?
  obtain ⟨y, right⟩ := hb.exists_place?
  have same : a.same b = true ↔ q = r := by
    rw [Number.same_iff_rational ha hb, value, value', Option.some_inj]
  have le := Number.place_le_iff ha hb together left right value value'
  have ge := Number.place_le_iff hb ha (fun h => together h.symm) right left value' value
  cases op with
  | equal => exact finds_equal_iff.trans same
  | notEqual => rw [finds_notEqual_iff, ← Bool.not_eq_true, same, Comparison.Holds]
  | less => exact (finds_less_iff left right).trans (lt_iff_lt_of_le_iff_le ge)
  | lessOrEqual => exact (finds_lessOrEqual_iff left right).trans le
  | greater => exact (finds_greater_iff left right).trans (lt_iff_lt_of_le_iff_le le)
  | greaterOrEqual => exact (finds_greaterOrEqual_iff left right).trans ge

theorem finds_iff_of_coincide (ha : a.Decoded) (hb : b.Decoded) (together : a.Coincide b) (op : Comparison) :
    Finds op a b ↔ op ∈ [Comparison.notEqual, .lessOrEqual, .greaterOrEqual] := by
  obtain ⟨x, left, right⟩ := together.level ha hb
  have different := together.same_eq_false ha hb
  cases op <;> simp [finds_equal_iff, finds_notEqual_iff, finds_less_iff left right,
    finds_lessOrEqual_iff left right, finds_greater_iff left right, finds_greaterOrEqual_iff left right, different]

/-- Of two numbers of documents one is less than the other or they are equal, and they are ordered or equal
as the signs say, unless they are different integers with the same nearest double. -/
theorem comparisons_consistent (ha : (Value.number a).InDocument) (hb : (Value.number b).InDocument) :
    (¬ a.Coincide b →
      (∃! op, op ∈ [Comparison.less, .equal, .greater] ∧ Finds op a b) ∧
      (Finds .lessOrEqual a b ↔ Finds .less a b ∨ Finds .equal a b) ∧
      (Finds .greaterOrEqual a b ↔ Finds .greater a b ∨ Finds .equal a b)) ∧
    (a.Coincide b →
      ∀ op, Finds op a b ↔ op ∈ [Comparison.notEqual, .lessOrEqual, .greaterOrEqual]) := by
  refine ⟨fun together => ?_, finds_iff_of_coincide ha.decoded_number hb.decoded_number⟩
  obtain ⟨q, value⟩ := Option.isSome_iff_exists.1 ha.decoded_number.rational?_isSome
  obtain ⟨r, value'⟩ := Option.isSome_iff_exists.1 hb.decoded_number.rational?_isSome
  simp only [finds_iff_holds ha.decoded_number hb.decoded_number value value' together]
  refine ⟨Comparison.existsUnique_holds q r, ?_, ?_⟩
  · exact le_iff_lt_or_eq
  · rw [Comparison.Holds, Comparison.Holds, Comparison.Holds, @eq_comm _ q]
    exact le_iff_lt_or_eq

theorem comparisons_neighbours :
    (∀ op, Finds op (.ofInt 9007199254740993) (.ofInt 9007199254740992) ↔
      op ∈ [Comparison.notEqual, .lessOrEqual, .greaterOrEqual]) ∧
    ∃! op, op ∈ [Comparison.less, .equal, .greater] ∧
      Finds op (.ofInt 9007199254740993) (.ofInt 9007199254740995) := by
  have inside {n : Int} (mem : n ∈ Value.neighbours) := Value.inDocument_of_mem_neighbours mem
  constructor
  · exact (comparisons_consistent (inside (by decide)) (inside (by decide))).2 Value.coincide_neighbours
  · exact ((comparisons_consistent (inside (by decide)) (inside (by decide))).1 Value.not_coincide_neighbours).1

/-- No comparison tells which of two integers is the greater, nor are they equal. -/
theorem not_comparisons_consistent :
    let odd := Number.ofInt 9007199254740993
    let even := Number.ofInt 9007199254740992
    (Value.number odd).InDocument ∧ (Value.number even).InDocument ∧
      ¬ Finds .less odd even ∧ ¬ Finds .equal odd even ∧ ¬ Finds .greater odd even ∧
      Finds .lessOrEqual odd even := by
  have finds := finds_iff_of_coincide (Number.decoded_ofInt (by decide)) (Number.decoded_ofInt (by decide))
    Value.coincide_neighbours
  refine ⟨Value.inDocument_of_mem_neighbours (by decide), Value.inDocument_of_mem_neighbours (by decide), ?_⟩
  simp [finds]

end Evaluator

end JsonQuery

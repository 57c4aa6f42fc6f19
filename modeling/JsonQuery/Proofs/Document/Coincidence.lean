import JsonQuery.Proofs.Document.Denotation
import JsonQuery.Proofs.Number.Level
import JsonQuery.Proofs.Part
import Mathlib.Data.Rat.Cast.Order

/-!
What stands in documents. Two numbers of documents whose doubles are equal are equal themselves, or they
coincide: they are different integers that have the same nearest double, which takes more than 53 bits.
-/
namespace JsonQuery

namespace Double

variable {m n x : Int}

theorem rank?_ofInt_of_natAbs_le (h : n.natAbs ≤ 2 ^ 53) : (ofInt n).rank? = some (n * one) := by
  rw [ofInt_of_natAbs_le h, rank?, signed_mul, signed_natAbs]

theorem le_natAbs_rank?_ofInt (h : 2 ^ 53 ≤ n.natAbs) (rank : (ofInt n).rank? = some x) :
    2 ^ 53 * one ≤ x.natAbs := by
  have power := representable_mul_one (Nat.le_refl (2 ^ 53))
  obtain rfl := Option.some.inj ((rank?_ofInt n).symm.trans rank)
  rw [natAbs_nearest, Int.natAbs_mul, Int.natAbs_natCast]
  refine Nat.le_min.2 ⟨?_, Nat.le_of_lt power.1⟩
  calc 2 ^ 53 * one = roundUnits (2 ^ 53 * one) 1 := (roundUnits_of_mod power.2).symm
    _ ≤ roundUnits (n.natAbs * one) 1 := roundUnits_mono (Nat.mul_le_mul_right one h)

/-- Different integers of at most 53 bits have different nearest doubles. -/
theorem le_natAbs_of_same_ofInt (different : m ≠ n) (h : (ofInt m).same (ofInt n) = true) :
    2 ^ 53 ≤ m.natAbs := by
  by_contra small
  obtain ⟨x, left, right⟩ := same_iff_rank.1 h
  obtain rfl := Option.some.inj ((rank?_ofInt_of_natAbs_le (by omega)).symm.trans left)
  rcases Nat.le_total n.natAbs (2 ^ 53) with small' | large
  · rw [rank?_ofInt_of_natAbs_le small'] at right
    exact different (Int.eq_of_mul_eq_mul_right (Int.natCast_ne_zero.2 (Nat.ne_of_gt one_pos))
      (Option.some.inj right).symm)
  · have le := le_natAbs_rank?_ofInt large right
    rw [Int.natAbs_mul, Int.natAbs_natCast] at le
    exact small (Nat.le_of_mul_le_mul_right le one_pos)

end Double

namespace Number

variable {a b : Number}

namespace Decoded

variable {n : Int}

theorem exists_units (h : a.Decoded) :
    ∃ u : Int, a.rational? = some ((u : ℚ) / Double.one) ∧ a.place? = some (Double.nearest u) := by
  cases h with
  | @double d finite =>
    cases d with
    | nan | infinite => cases finite
    | finite negative units representable =>
      exact ⟨Double.signed negative units, rfl, congrArg some (Double.nearest_of_rank? finite rfl).symm⟩
  | @token n word =>
    refine ⟨n * Double.one, ?_, ?_⟩
    · rw [rational?_toString, Int.cast_mul, Int.cast_natCast, mul_div_cancel_right₀ _ Double.one_ne_zero]
    · rw [place?_of_toInteger? (toInteger?_toString word), Double.rank?_ofInt]

theorem exists_place? (h : a.Decoded) : ∃ x, a.place? = some x := by
  obtain ⟨u, -, place⟩ := h.exists_units
  exact ⟨_, place⟩

theorem place_le (ha : a.Decoded) (hb : b.Decoded) {x y : Int} (left : a.place? = some x)
    (right : b.place? = some y) {q r : ℚ} (value : a.rational? = some q) (value' : b.rational? = some r)
    (h : q ≤ r) : x ≤ y := by
  obtain ⟨u, units, place⟩ := ha.exists_units
  obtain ⟨v, units', place'⟩ := hb.exists_units
  obtain rfl := Option.some.inj (place.symm.trans left)
  obtain rfl := Option.some.inj (place'.symm.trans right)
  obtain rfl := Option.some.inj (units.symm.trans value)
  obtain rfl := Option.some.inj (units'.symm.trans value')
  have positive : (0 : ℚ) < Double.one := Nat.cast_pos.2 Double.one_pos
  exact Double.nearest_mono (Int.cast_le.1 ((div_le_div_iff_of_pos_right positive).1 h))

theorem rational?_of_toInteger? (h : a.Decoded) (integer : a.toInteger? = some n) :
    a.rational? = some (n : ℚ) := by
  cases h with
  | double => exact Number.rational?_of_toInteger? integer
  | token word =>
    obtain rfl := Option.some.inj ((toInteger?_toString word).symm.trans integer)
    exact rational?_toString _

theorem place?_of_rational? (h : a.Decoded) (value : a.rational? = some (n : ℚ)) :
    a.place? = (Double.ofInt n).rank? := by
  cases h with
  | double => exact Double.rank?_of_toInt? (Double.toInt?_of_rational? value)
  | token word =>
    rw [rational?_toString, Option.some_inj, Int.cast_inj] at value
    rw [place?_of_toInteger? (toInteger?_toString word), value]

end Decoded

/-- Whether two numbers are different integers, none of them below 53 bits, with the same nearest double. -/
def Coincide (a b : Number) : Prop :=
  ∃ m n : Int, a.rational? = some (m : ℚ) ∧ b.rational? = some (n : ℚ) ∧ m ≠ n ∧
    2 ^ 53 ≤ m.natAbs ∧ 2 ^ 53 ≤ n.natAbs ∧ (Double.ofInt m).same (Double.ofInt n) = true

theorem coincide_ofInt_iff {m n : Int} (hm : IsWord m) (hn : IsWord n) :
    (ofInt m).Coincide (ofInt n) ↔ m ≠ n ∧ (Double.ofInt m).same (Double.ofInt n) = true := by
  have left := (decoded_ofInt hm).rational?_of_toInteger? (toInteger?_ofInt hm)
  have right := (decoded_ofInt hn).rational?_of_toInteger? (toInteger?_ofInt hn)
  constructor
  · rintro ⟨m', n', left', right', different, -, -, same⟩
    obtain rfl : m = m' := by simpa using left.symm.trans left'
    obtain rfl : n = n' := by simpa using right.symm.trans right'
    exact ⟨different, same⟩
  · rintro ⟨different, same⟩
    exact ⟨m, n, left, right, different, Double.le_natAbs_of_same_ofInt different same,
      Double.le_natAbs_of_same_ofInt different.symm (Double.same_comm _ _ ▸ same), same⟩

theorem Coincide.symm (h : a.Coincide b) : b.Coincide a := by
  obtain ⟨m, n, left, right, different, large, large', same⟩ := h
  exact ⟨n, m, right, left, different.symm, large', large, Double.same_comm _ _ ▸ same⟩

theorem Coincide.same_eq_false (ha : a.Decoded) (hb : b.Decoded) (h : a.Coincide b) : a.same b = false := by
  obtain ⟨m, n, left, right, different, -⟩ := h
  rw [← Bool.not_eq_true, same_iff_rational ha hb, left, right, Option.some_inj, Int.cast_inj]
  exact different

theorem Coincide.level (ha : a.Decoded) (hb : b.Decoded) (h : a.Coincide b) : a.Level b := by
  obtain ⟨m, n, left, right, -, -, -, same⟩ := h
  rw [Level, ha.place?_of_rational? left, hb.place?_of_rational? right]
  exact Double.same_iff_rank.1 same

theorem level_of_same (ha : a.Decoded) (h : a.same b = true) : a.Level b := by
  rcases same_iff.1 h with twin | ⟨level, -⟩
  · obtain ⟨x, place⟩ := ha.exists_place?
    exact ⟨x, place, twin.reads.2 ▸ place⟩
  · exact level

/-- Numbers of documents with equal doubles are equal or coincide. -/
theorem level_iff (ha : a.Decoded) (hb : b.Decoded) : a.Level b ↔ a.same b = true ∨ a.Coincide b := by
  refine ⟨fun level => ?_, fun h => h.elim (level_of_same ha) (Coincide.level ha hb)⟩
  by_cases apart : a.Apart b
  · obtain ⟨m, n, left, right, different⟩ := apart
    have same : (Double.ofInt m).same (Double.ofInt n) = true := by
      rwa [Double.same_iff_rank, ← place?_of_toInteger? left, ← place?_of_toInteger? right]
    exact .inr ⟨m, n, ha.rational?_of_toInteger? left, hb.rational?_of_toInteger? right, different,
      Double.le_natAbs_of_same_ofInt different same,
      Double.le_natAbs_of_same_ofInt different.symm (Double.same_comm _ _ ▸ same), same⟩
  · exact .inl (same_iff.2 (.inr ⟨level, apart⟩))

theorem place_le_iff (ha : a.Decoded) (hb : b.Decoded) (together : ¬ a.Coincide b) {x y : Int}
    (left : a.place? = some x) (right : b.place? = some y) {q r : ℚ} (value : a.rational? = some q)
    (value' : b.rational? = some r) : x ≤ y ↔ q ≤ r := by
  refine ⟨fun le => ?_, ha.place_le hb left right value value'⟩
  by_contra less
  have equal : x = y := le_antisymm le (hb.place_le ha right left value' value (le_of_not_ge less))
  have level : a.Level b := ⟨x, left, equal ▸ right⟩
  have same := (same_iff_rational ha hb).1 (((level_iff ha hb).1 level).resolve_right together)
  rw [value, value', Option.some_inj] at same
  exact less same.le

end Number

namespace Value

theorem Decoded.of_part {u v : Value} (h : v.Decoded) (part : Part u v) : u.Decoded := by
  induction part with
  | self => exact h
  | item there _ ih =>
    cases h with
    | array each => exact ih (each _ there)
  | member there _ ih =>
    cases h with
    | object _ each => exact ih (each _ there)
  | field | element => cases h

def InDocument (v : Value) : Prop := ∃ d : Document, Part v d.1

theorem inDocument_of_read? {r : Reading} {text : String} {v : Value} (read : read? r text = some v) : v.InDocument :=
  ⟨⟨v, r, text, read⟩, .self v⟩

theorem InDocument.of_part {u v : Value} (h : v.InDocument) (part : Part u v) : u.InDocument := by
  obtain ⟨d, outer⟩ := h
  exact ⟨d, part.trans outer⟩

theorem InDocument.decoded {v : Value} (h : v.InDocument) : v.Decoded := by
  obtain ⟨d, part⟩ := h
  exact d.decoded.of_part part

theorem InDocument.decoded_number {n : Number} (h : (number n).InDocument) : n.Decoded := by
  cases h.decoded with
  | number decoded => exact decoded

/-- Integers of more than 53 bits, of which the first two have the same nearest double. -/
def neighbours : List Int := [9007199254740993, 9007199254740992, 9007199254740995]

theorem inDocument_neighbours : (array (neighbours.map .ofInt)).InDocument := by
  have read : read? .nearest "[9007199254740993, 9007199254740992, 9007199254740995]" =
      some (.array (neighbours.map .ofInt)) := by rfl
  exact inDocument_of_read? read

theorem inDocument_of_mem_neighbours {n : Int} (mem : n ∈ neighbours) : (ofInt n).InDocument :=
  inDocument_neighbours.of_part (.item (List.mem_map_of_mem mem) (.self _))

theorem coincide_neighbours : (Number.ofInt 9007199254740993).Coincide (.ofInt 9007199254740992) := by
  rw [Number.coincide_ofInt_iff (by decide) (by decide)]
  decide +kernel

theorem not_coincide_neighbours : ¬ (Number.ofInt 9007199254740993).Coincide (.ofInt 9007199254740995) := by
  rw [Number.coincide_ofInt_iff (by decide) (by decide)]
  decide +kernel

end Value

end JsonQuery

import JsonQuery.Proofs.Number.Integer

/-!
Numbers that are equal by value. An integer of 64 bits is the same whether a double or a token holds it, and
a double is the same as itself unless it is a NaN.
-/
namespace JsonQuery

namespace Double

theorem less_iff {a b : Double} :
    a.less b = true ↔ ∃ x y, a.rank? = some x ∧ b.rank? = some y ∧ x < y := by
  unfold less compare?
  cases a.rank? <;> cases b.rank? <;> simp [Std.compare_eq_lt]

/-- The bound below which doubles are compared as integers is far beyond 64 bits. -/
theorem integer_lt_bound {units : Nat} (h : units < 2 ^ 126 * one) (representable : Representable units) :
    (finite false units representable).less (Decimal.toDouble ⟨false, 1, 38⟩) = true := by
  have bound : ((Decimal.toDouble ⟨false, 1, 38⟩).rank?.any fun r =>
      decide (((2 ^ 126 * one : Nat) : Int) ≤ r)) = true := by
    decide +kernel
  obtain ⟨r, rank, above⟩ := (Option.any_eq_true _ _).1 bound
  rw [decide_eq_true_eq] at above
  have below : (units : Int) < r := by omega
  exact less_iff.2 ⟨units, r, rfl, rank, below⟩

theorem same_iff_rank {a b : Double} : a.same b = true ↔ ∃ x, a.rank? = some x ∧ b.rank? = some x := by
  unfold same compare?
  cases a.rank? with
  | none => simp
  | some x => cases b.rank? <;> simp [@eq_comm Int x]

theorem exists_rank? {d : Double} (h : d.isNaN = false) : ∃ x, d.rank? = some x := by
  cases d with
  | nan => cases h
  | infinite | finite => exact ⟨_, rfl⟩

theorem same_self {d : Double} (h : d.isFinite = true) : d.same d = true := by
  cases d with
  | nan | infinite => cases h
  | finite negative units representable => simp [same, compare?, rank?]

end Double

namespace Number

theorem toInteger?_of_toInt? {d : Double} {n : Int} (h : d.toInt? = some n) (bound : n.natAbs < 2 ^ 126) :
    (double d).toInteger? = some n := by
  obtain ⟨negative, representable, rfl, -⟩ := Double.exists_of_toInt? h
  have below : n.natAbs * Double.one < 2 ^ 126 * Double.one :=
    Nat.mul_lt_mul_of_pos_right bound Double.one_pos
  rw [toInteger?, Double.abs, if_pos (Double.integer_lt_bound below representable), h]

theorem toInteger?_of_wordOfDouble? {d : Double} {n : Int} (h : wordOfDouble? d = some n) :
    (double d).toInteger? = some n := by
  obtain ⟨whole, inside⟩ := Option.filter_eq_some_iff.1 h
  simp only [decide_eq_true_eq] at inside
  exact toInteger?_of_toInt? whole (by omega)

theorem toInteger?_toString {n : Int} (h : IsWord n) : (token (toString n)).toInteger? = some n := by
  unfold IsWord at h
  rw [toInteger?, trimmed, trim_toString, readInt128?, readIntIn?, readInt?_toString,
    Option.filter_some, if_pos]
  simp only [decide_eq_true_eq]
  omega

theorem toInteger?_ofInt {n : Int} (h : IsWord n) : (ofInt n).toInteger? = some n := by
  unfold ofInt
  split
  · exact toInteger?_toString h
  · next small =>
    exact toInteger?_of_wordOfDouble? (wordOfDouble?_ofInt (by omega))

theorem toDouble?_toString (n : Int) : (token (toString n)).toDouble? = some (.ofInt n) := by
  rw [toDouble?, trimmed, trim_toString, Double.read?_toString]

/-- Equality by value, whatever the tokens. -/
def sameValue (a b : Number) : Bool :=
  match a.toInteger?, b.toInteger? with
  | some m, some n => m == n
  | _, _ =>
    match a.toDouble?, b.toDouble? with
    | some x, some y => x.same y
    | _, _ => false

theorem sameValue_comm (a b : Number) : a.sameValue b = b.sameValue a := by
  unfold sameValue
  cases a.toInteger? <;> cases b.toInteger? <;> cases a.toDouble? <;> cases b.toDouble? <;>
    first | rfl | exact Bool.beq_comm | exact Double.same_comm _ _

theorem same_comm (a b : Number) : a.same b = b.same a := by
  have values := sameValue_comm a b
  cases a with
  | double => cases b <;> exact values
  | token s =>
    cases b with
    | double => exact values
    | token t =>
      change (trimmed s == trimmed t || _) = (trimmed t == trimmed s || _)
      rw [Bool.beq_comm]
      exact congrArg _ values

/-- Integers with the same token are the same integer, so their tokens do not matter. -/
theorem same_eq_sameValue {a : Number} {n : Int} (h : a.toInteger? = some n) (b : Number) :
    a.same b = a.sameValue b := by
  cases a with
  | double => cases b <;> rfl
  | token s =>
    cases b with
    | double => rfl
    | token t =>
      change (trimmed s == trimmed t || (token s).sameValue (token t)) = _
      by_cases same : trimmed s = trimmed t
      · have other : (token t).toInteger? = some n := by
          rw [toInteger?, ← same]
          exact h
        simp [sameValue, h, other]
      · rw [beq_false_of_ne same, Bool.false_or]

theorem same_congr_left {a a' : Number} {n : Int} (h : a.toInteger? = some n)
    (h' : a'.toInteger? = some n) (doubles : a.toDouble? = a'.toDouble?) (b : Number) :
    a.same b = a'.same b := by
  rw [same_eq_sameValue h, same_eq_sameValue h', sameValue, sameValue, h, h', doubles]

theorem same_of_toInteger? {a b : Number} {n : Int} (ha : a.toInteger? = some n)
    (hb : b.toInteger? = some n) : a.same b = true := by
  simp [same, ha, hb]

theorem same_double_self {d : Double} (h : d.isFinite = true) :
    (double d).same (double d) = true := by
  unfold same
  cases (double d).toInteger? with
  | none => simp [toDouble?, Double.same_self h]
  | some n => simp

end Number

end JsonQuery

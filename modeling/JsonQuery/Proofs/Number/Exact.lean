import JsonQuery.Proofs.Number.Equality
import Mathlib.Algebra.Field.Rat

/-!
Numbers as rationals. The numbers of documents are finite doubles and the tokens of integers, and these are
equal only if they stand for the same rational: an integer that a token holds is rounded when it is compared
with a double that is none, but then its double is an integer as well.
-/
namespace JsonQuery

namespace Double

def rational? : Double → Option ℚ
  | .finite negative units _ => some (signed negative units / one)
  | _ => none

theorem one_ne_zero : (one : ℚ) ≠ 0 := Nat.cast_ne_zero.2 (Nat.ne_of_gt one_pos)

theorem rational?_of_toInt? {d : Double} {n : Int} (h : d.toInt? = some n) : d.rational? = some (n : ℚ) := by
  obtain ⟨negative, representable, rfl, sign⟩ := exists_of_toInt? h
  rw [rational?, signed_mul, sign]
  push_cast
  rw [mul_div_cancel_right₀ _ one_ne_zero]

/-- Finite doubles are compared exactly. -/
theorem same_iff_rational {d d' : Double} (h : d.isFinite = true) (h' : d'.isFinite = true) :
    d.same d' = true ↔ d.rational? = d'.rational? := by
  cases d with
  | nan | infinite => cases h
  | finite negative units _ =>
    cases d' with
    | nan | infinite => cases h'
    | finite negative' units' _ =>
      rw [rational?, rational?, Option.some_inj, div_left_inj' one_ne_zero, Int.cast_inj]
      simp [same, compare?, rank?]

theorem units_of_rational? {negative : Bool} {units : Nat} {representable : Representable units} {n : Int}
    (h : (finite negative units representable).rational? = some (n : ℚ)) :
    signed negative units = n * one ∧ units = n.natAbs * one := by
  have units_eq : signed negative units = n * one := by
    have ratio := Option.some.inj h
    rw [div_eq_iff one_ne_zero] at ratio
    exact_mod_cast ratio
  refine ⟨units_eq, ?_⟩
  rw [← natAbs_signed negative units, units_eq, Int.natAbs_mul, Int.natAbs_natCast]

theorem toInt?_of_rational? {d : Double} {n : Int} (h : d.rational? = some (n : ℚ)) :
    d.toInt? = some n := by
  cases d with
  | nan | infinite => cases h
  | finite negative units representable =>
    obtain ⟨units_eq, whole⟩ := units_of_rational? h
    have back : signed negative n.natAbs = n := by
      apply Int.eq_of_mul_eq_mul_right (Int.natCast_ne_zero.2 (Nat.ne_of_gt one_pos))
      rw [← signed_mul, ← whole, units_eq]
    rw [toInt?, whole, Nat.mul_mod_left, if_pos rfl, Nat.mul_div_cancel _ one_pos, back]

theorem one_dvd_roundUnits (k : Nat) : one ∣ roundUnits (k * one) 1 := by
  by_cases small : k ≤ 2 ^ 53
  · rw [roundUnits_of_mod (representable_mul_one small).2]
    exact Nat.dvd_mul_left one k
  · obtain ⟨s, same⟩ := exists_one_eq
    have nonzero : k * one ≠ 0 := Nat.mul_ne_zero (by omega) (Nat.ne_of_gt one_pos)
    have large : 53 + s ≤ (k * one).log2 := by
      rw [Nat.le_log2 nonzero, Nat.pow_add, same]
      exact Nat.mul_le_mul_right _ (by omega)
    have spare : s ≤ spareBits (k * one / 1) := by
      rw [Nat.div_one]
      unfold spareBits
      omega
    have divides : one ∣ 2 ^ spareBits (k * one / 1) := by
      rw [same] at spare ⊢
      exact Nat.pow_dvd_pow 2 spare
    exact Dvd.dvd.mul_left divides _

theorem isIntegral_of_dvd {negative : Bool} {units : Nat} {representable : Representable units}
    (h : one ∣ units) : (finite negative units representable).isIntegral = true := by
  rw [isIntegral, toInt?, if_pos (Nat.mod_eq_zero_of_dvd h)]
  rfl

theorem isIntegral_ofRatio {negative : Bool} {k : Nat} (finite : (ofRatio negative (k * one) 1).isFinite = true) :
    (ofRatio negative (k * one) 1).isIntegral = true := by
  unfold ofRatio at finite ⊢
  split
  · exact isIntegral_of_dvd (one_dvd_roundUnits k)
  · next above =>
    rw [dif_neg above] at finite
    cases finite

theorem roundUnits_le (num : Nat) : roundUnits num 1 ≤ 2 * num := by
  rcases Nat.eq_zero_or_pos num with rfl | pos
  · rw [roundUnits_of_mod (Nat.zero_mod _)]
  · have step : 2 ^ spareBits num ≤ num :=
      Nat.le_trans (Nat.pow_le_pow_right (by decide) (Nat.sub_le _ _))
        (Nat.log2_self_le (Nat.ne_of_gt pos))
    unfold roundUnits
    dsimp only
    rw [Nat.div_one, Nat.one_mul]
    calc roundDiv num (2 ^ spareBits num) * 2 ^ spareBits num
        ≤ (num / 2 ^ spareBits num + 1) * 2 ^ spareBits num := Nat.mul_le_mul_right _ (roundDiv_le _ _)
      _ = num / 2 ^ spareBits num * 2 ^ spareBits num + 2 ^ spareBits num := Nat.succ_mul _ _
      _ ≤ num + num := Nat.add_le_add (Nat.div_mul_le_self _ _) step
      _ = 2 * num := (Nat.two_mul num).symm

theorem rational?_ofInt {n : Int} (h : n.natAbs ≤ 2 ^ 64) :
    ∃ m : Int, (ofInt n).rational? = some (m : ℚ) ∧ m.natAbs ≤ 2 ^ 65 := by
  obtain ⟨q, rounded⟩ := exists_eq_mul_left_of_dvd (one_dvd_roundUnits n.natAbs)
  have bound : q ≤ 2 ^ 65 := by
    have le := roundUnits_le (n.natAbs * one)
    rw [rounded, ← Nat.mul_assoc] at le
    have := Nat.le_of_mul_le_mul_right le one_pos
    omega
  have below : roundUnits (n.natAbs * one) 1 < limit := by
    rw [rounded, limit_eq]
    apply Nat.mul_lt_mul_of_pos_right
    · apply Nat.lt_of_le_of_lt bound
      apply Nat.pow_lt_pow_right
      · decide
      · decide
    · exact one_pos
  have representable : Representable (roundUnits (n.natAbs * one) 1) := ⟨below, roundUnits_mod _ _⟩
  have value : ofInt n = .finite (n < 0) (roundUnits (n.natAbs * one) 1) representable := by
    rw [ofInt, ofRatio, dif_pos below]
  refine ⟨signed (n < 0) q, ?_, by rwa [natAbs_signed]⟩
  rw [value, rational?, rounded, signed_mul]
  push_cast
  rw [mul_div_cancel_right₀ _ one_ne_zero]

end Double

def Decimal.rational (d : Decimal) : ℚ := Double.signed d.negative d.mantissa * 10 ^ d.exponent

namespace Number

/-- The rational a number stands for, which for a token is that of all its digits. -/
def rational? : Number → Option ℚ
  | .double d => d.rational?
  | .token text =>
    let (negative, rest) := splitSign (trimmed text)
    (Decimal.readUnsigned? negative rest).map Decimal.rational

theorem rational?_toString (n : Int) : (token (toString n)).rational? = some (n : ℚ) := by
  unfold rational? trimmed
  dsimp only
  rw [trim_toString, toList_toString_int, splitSign_sign_toDigits]
  dsimp only
  rw [Decimal.readUnsigned?_toDigits, Option.map_some, Decimal.rational, signed_natAbs]
  simp

/-- The numbers of documents. -/
inductive Decoded : Number → Prop
  | double {d : Double} (finite : d.isFinite = true) : Decoded (.double d)
  | token {n : Int} (word : IsWord n) : Decoded (.token (toString n))

theorem decoded_ofInt {n : Int} (h : IsWord n) : (ofInt n).Decoded := by
  unfold ofInt
  split
  · exact .token h
  · next small =>
    have finite : (Double.ofInt n).isFinite = true := by
      rw [Double.ofInt_of_natAbs_le (Nat.le_of_not_lt small)]
      rfl
    exact .double finite

theorem Decoded.rational?_isSome {n : Number} (h : n.Decoded) : n.rational?.isSome = true := by
  cases h with
  | @double d finite =>
    cases d with
    | nan | infinite => cases finite
    | finite => rfl
  | token => rw [rational?_toString]; rfl

theorem rational?_of_toInteger? {d : Double} {n : Int} (h : (double d).toInteger? = some n) :
    d.rational? = some (n : ℚ) := by
  rw [toInteger?] at h
  split at h
  · exact Double.rational?_of_toInt? h
  · cases h

theorem toInteger?_of_rational? {d : Double} {n : Int} (h : d.rational? = some (n : ℚ))
    (bound : n.natAbs < 2 ^ 126) : (double d).toInteger? = some n :=
  toInteger?_of_toInt? (Double.toInt?_of_rational? h) bound

theorem isFinite_ofInt {n : Int} (h : IsWord n) : (Double.ofInt n).isFinite = true := by
  obtain ⟨m, value, _⟩ := Double.rational?_ofInt (n := n) (by unfold IsWord at h; omega)
  cases same : Double.ofInt n with
  | nan | infinite => rw [same] at value; cases value
  | finite => rfl

theorem same_toString_iff {d : Double} (finite : d.isFinite = true) {n : Int} (h : IsWord n) :
    (double d).same (token (toString n)) = true ↔ d.rational? = some (n : ℚ) := by
  have token := toInteger?_toString h
  have bound : n.natAbs ≤ 2 ^ 64 := by unfold IsWord at h; omega
  rw [same_comm, same_eq_sameValue token, sameValue, token]
  cases integer : (double d).toInteger? with
  | some m =>
    rw [rational?_of_toInteger? integer, Option.some_inj, Int.cast_inj]
    exact beq_iff_eq.trans eq_comm
  | none =>
    have no {m : Int} (small : m.natAbs ≤ 2 ^ 65) : d.rational? ≠ some (m : ℚ) := by
      intro value
      rw [toInteger?_of_rational? value (by omega)] at integer
      cases integer
    refine iff_of_false ?_ (no (by omega))
    rw [toDouble?_toString, toDouble?]
    dsimp only
    obtain ⟨m, value, small⟩ := Double.rational?_ofInt bound
    rw [Double.same_iff_rational (isFinite_ofInt h) finite, value]
    exact fun same => no small same.symm

theorem same_double_iff {d d' : Double} (finite : d.isFinite = true) (finite' : d'.isFinite = true) :
    (double d).same (double d') = true ↔ d.rational? = d'.rational? := by
  change sameValue (double d) (double d') = true ↔ _
  have doubles := Double.same_iff_rational finite finite'
  unfold sameValue
  cases left : (double d).toInteger? with
  | none => exact doubles
  | some m =>
    cases right : (double d').toInteger? with
    | none => exact doubles
    | some n =>
      rw [rational?_of_toInteger? left, rational?_of_toInteger? right]
      simp

/-- Numbers of documents are compared exactly. -/
theorem same_iff_rational {a b : Number} (ha : a.Decoded) (hb : b.Decoded) :
    a.same b = true ↔ a.rational? = b.rational? := by
  cases ha with
  | double finite =>
    cases hb with
    | double finite' => exact same_double_iff finite finite'
    | token word =>
      rw [rational?_toString]
      exact same_toString_iff finite word
  | @token m word =>
    rw [rational?_toString]
    cases hb with
    | double finite =>
      rw [same_comm, same_toString_iff finite word, eq_comm]
      rfl
    | @token n word' =>
      have left := toInteger?_toString word
      rw [rational?_toString, same_eq_sameValue left, sameValue, left, toInteger?_toString word']
      simp

end Number

end JsonQuery

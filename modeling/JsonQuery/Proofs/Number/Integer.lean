import JsonQuery.Number
import JsonQuery.Proofs.Number.Digits
import JsonQuery.Proofs.Number.Shortest

/-!
Integers as numbers, as constants and as numerals. Up to 53 bits they are doubles without loss, beyond
that they are kept as tokens, and of both the same numeral is written.
-/
namespace JsonQuery

namespace Double

theorem representable_mul_one {k : Nat} (h : k ≤ 2 ^ 53) : Representable (k * one) := by
  constructor
  · calc k * one ≤ 2 ^ 53 * one := Nat.mul_le_mul_right _ h
      _ < 2 ^ 1024 * one := by
          apply Nat.mul_lt_mul_of_pos_right
          · apply Nat.pow_lt_pow_right
            · decide
            · decide
          · exact one_pos
      _ = limit := limit_eq.symm
  · unfold one
    exact mod_spareBits_mul k 1074 h

theorem ofInt_of_natAbs_le {n : Int} (h : n.natAbs ≤ 2 ^ 53) :
    ofInt n = .finite (n < 0) (n.natAbs * one) (representable_mul_one h) :=
  ofRatio_units _ (representable_mul_one h)

theorem toInt?_ofInt {n : Int} (h : n.natAbs ≤ 2 ^ 53) : (ofInt n).toInt? = some n := by
  have whole : n.natAbs * one % one = 0 := Nat.mul_mod_left _ _
  have back : n.natAbs * one / one = n.natAbs := Nat.mul_div_cancel _ one_pos
  rw [ofInt_of_natAbs_le h, toInt?, if_pos whole, back, signed_natAbs]

theorem exists_of_toInt? {d : Double} {n : Int} (h : d.toInt? = some n) :
    ∃ negative representable, d = .finite negative (n.natAbs * one) representable ∧
      signed negative n.natAbs = n := by
  cases d with
  | nan | infinite => cases h
  | finite negative units representable =>
    rw [toInt?] at h
    split at h
    · next whole =>
      obtain rfl := Option.some.inj h
      have units_eq : units = (signed negative (units / one)).natAbs * one := by
        rw [natAbs_signed, Nat.div_mul_cancel (Nat.dvd_of_mod_eq_zero whole)]
      refine ⟨negative, units_eq ▸ representable, ?_, ?_⟩
      · simp only [← units_eq]
      · rw [natAbs_signed]
    · cases h

theorem read?_toString (n : Int) : read? (toString n).toList = some (ofInt n) := by
  obtain ⟨m, value, read⟩ := read?_of_readInt? (readInt?_toString n)
  have sign : (splitSign (toString n).toList).1 = decide (n < 0) := by
    rw [toList_toString_int, splitSign_sign_toDigits]
  have magnitude := natAbs_signed (n < 0) m
  rw [← sign, ← value] at magnitude
  rw [read, sign, Decimal.toDouble_eq_ofRatio, ← magnitude]
  simp [ofInt]

end Double

namespace Number

/-- Integers of 64 bits, signed or unsigned. -/
def IsWord (n : Int) : Prop := -2 ^ 63 ≤ n ∧ n < 2 ^ 64

instance (n : Int) : Decidable (IsWord n) := inferInstanceAs (Decidable (_ ∧ _))

theorem isWord_of_wordOfDouble? {d : Double} {n : Int} (h : wordOfDouble? d = some n) :
    IsWord n := by
  obtain ⟨_, inside⟩ := Option.filter_eq_some_iff.1 h
  simp only [decide_eq_true_eq] at inside
  exact ⟨by omega, inside.2⟩

theorem isWord_of_read? {cs : List Char} {n : Int}
    (h : (readInt64? cs).or (readUInt64? cs) = some n) : IsWord n := by
  rcases Option.or_eq_some_iff.1 h with signed | ⟨_, unsigned⟩
  · obtain ⟨_, inside⟩ := Option.filter_eq_some_iff.1 signed
    simp only [decide_eq_true_eq] at inside
    exact ⟨inside.1, by omega⟩
  · unfold readUInt64? at unsigned
    split at unsigned
    · cases unsigned
    · obtain ⟨_, inside⟩ := Option.filter_eq_some_iff.1 unsigned
      simp only [decide_eq_true_eq] at inside
      exact ⟨by omega, by omega⟩

theorem readInt?_of_read? {cs : List Char} {n : Int}
    (h : (readInt64? cs).or (readUInt64? cs) = some n) : readInt? cs = some n := by
  rcases Option.or_eq_some_iff.1 h with signed | ⟨_, unsigned⟩
  · exact (Option.filter_eq_some_iff.1 signed).1
  · unfold readUInt64? at unsigned
    split at unsigned
    · cases unsigned
    · exact (Option.filter_eq_some_iff.1 unsigned).1

theorem read?_toString {n : Int} (h : IsWord n) :
    (readInt64? (toString n).toList).or (readUInt64? (toString n).toList) = some n := by
  have read := readInt?_toString n
  by_cases small : n < 2 ^ 63
  · have signed : readInt64? (toString n).toList = some n := by
      rw [readInt64?, readIntIn?, read, Option.filter_some, if_pos]
      simp only [decide_eq_true_eq]
      exact ⟨h.1, by omega⟩
    rw [signed, Option.some_or]
  · have signed : readInt64? (toString n).toList = none := by
      rw [readInt64?, readIntIn?, read, Option.filter_some, if_neg]
      simp only [decide_eq_true_eq]
      omega
    have positive : decide (n < 0) = false := by simp only [decide_eq_false_iff_not]; omega
    have first : (toString n).toList.head? ≠ some '-' := by
      obtain ⟨c, rest, digits, digit⟩ := toDigits_cons n.natAbs
      rw [toList_toString_int, positive, digits]
      simpa [Decimal.sign] using ne_of_isDigit digit rfl
    rw [signed, Option.none_or, readUInt64?, if_neg first, readIntIn?, read, Option.filter_some,
      if_pos]
    simp only [decide_eq_true_eq]
    exact ⟨by omega, by have := h.2; omega⟩

theorem wordOfDouble?_ofInt {n : Int} (h : n.natAbs ≤ maxExact) :
    wordOfDouble? (.ofInt n) = some n := by
  have exact : n.natAbs ≤ 2 ^ 53 := h
  rw [wordOfDouble?, Double.toInt?_ofInt exact, Option.filter_some, if_pos]
  simp only [decide_eq_true_eq]
  omega

theorem toLiteral_toString {n : Int} (h : IsWord n) :
    (token (toString n)).toLiteral = .ok (.integer n) := by
  unfold toLiteral trimmed
  dsimp only
  rw [trim_toString, read?_toString h]

theorem toLiteral_ofInt {n : Int} (h : IsWord n) : (ofInt n).toLiteral = .ok (.integer n) := by
  unfold ofInt
  split
  · exact toLiteral_toString h
  · next small =>
    rw [toLiteral, toLiteral.ofDouble, wordOfDouble?_ofInt (by omega)]

end Number

namespace Numeral

theorem word?_ofInt {n : Int} (h : Number.IsWord n) : (ofInt n).word? = some n := by
  have signed := signed_natAbs n
  unfold ofInt word?
  split
  · next same =>
    simp only [integer.injEq, decide_eq_true_eq] at same
    omega
  · next same => cases same
  · next negative magnitude other same =>
    cases same
    dsimp only
    rw [signed]
    exact if_pos h

theorem meaning?_ofInt (r : Reading) {n : Int} (h : Number.IsWord n) :
    (ofInt n).meaning? r = some (.integer n) := by
  unfold meaning?
  rw [word?_ofInt h]

theorem meaning?_decimal {r : Reading} {x : Decimal} {d : Double} (finite : d.isFinite = true) (h : r.double x = d) :
    (decimal x).meaning? r = some (.double d) := by
  subst h
  exact if_pos finite

end Numeral

end JsonQuery

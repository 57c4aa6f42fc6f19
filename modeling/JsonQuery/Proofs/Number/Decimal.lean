import JsonQuery.Decimal.Basic
import Mathlib.Tactic.Ring

/-!
Decimals by their value. The double nearest to a decimal depends on its value alone, and so does its
normal form, which has no zero at the end of its digits.
-/
namespace JsonQuery

namespace Double

theorem two_pow_split {a b c : Nat} (h : a = b + c) : 2 ^ a = 2 ^ b * 2 ^ c := by
  rw [h, Nat.pow_add]

theorem exists_one_eq : ∃ s, one = 2 ^ s := by
  unfold one
  generalize 1074 = s
  exact ⟨s, rfl⟩

theorem limit_eq : limit = 2 ^ 1024 * one := by
  unfold limit one
  apply two_pow_split
  omega

theorem le_roundDiv (num den : Nat) : num / den ≤ roundDiv num den := by
  unfold roundDiv
  dsimp only
  split <;> omega

theorem roundDiv_mul_right (num den : Nat) {c : Nat} (pos : 0 < c) :
    roundDiv (num * c) (den * c) = roundDiv num den := by
  unfold roundDiv
  rw [Nat.mul_div_mul_right num den pos, Nat.mul_mod_mul_right, ← Nat.mul_assoc]
  simp only [Nat.mul_lt_mul_right pos, Nat.mul_right_cancel_iff pos]

theorem roundUnits_mul_right (num den : Nat) {c : Nat} (pos : 0 < c) :
    roundUnits (num * c) (den * c) = roundUnits num den := by
  unfold roundUnits
  dsimp only
  rw [Nat.mul_div_mul_right num den pos, Nat.mul_right_comm, roundDiv_mul_right _ _ pos]

theorem ofRatio_mul_right (negative : Bool) (num den : Nat) {c : Nat} (pos : 0 < c) :
    ofRatio negative (num * c) (den * c) = ofRatio negative num den := by
  simp only [ofRatio, roundUnits_mul_right num den pos]

theorem ofRatio_congr (negative : Bool) {a b c d : Nat} (hb : 0 < b) (hd : 0 < d)
    (h : a * d = c * b) : ofRatio negative a b = ofRatio negative c d := by
  rw [← ofRatio_mul_right negative a b hd, h, Nat.mul_comm b d, ofRatio_mul_right negative c d hb]

theorem ofRatio_zero (negative : Bool) {den : Nat} : ofRatio negative 0 den = zero negative := by
  have none : roundUnits 0 den = 0 := by simp [roundUnits, roundDiv]
  simp only [ofRatio, none, zero]
  rw [dif_pos limit_pos]

theorem ofRatio_of_small (negative : Bool) {num den : Nat} (h : 2 * num < den) :
    ofRatio negative num den = zero negative := by
  have quotient : num / den = 0 := Nat.div_eq_of_lt (by omega)
  have none : roundUnits num den = 0 := by
    have rest : num % den = num := Nat.mod_eq_of_lt (by omega)
    simp only [roundUnits, roundDiv, quotient, spareBits, rest, Nat.log2_zero, Nat.zero_sub,
      Nat.pow_zero, Nat.mul_one]
    rw [if_neg (by omega)]
  simp only [ofRatio, none, zero]
  rw [dif_pos limit_pos]

theorem le_roundUnits {num den k : Nat} (hk : 52 ≤ k) (h : 2 ^ k ≤ num / den) :
    2 ^ k ≤ roundUnits num den := by
  have nonzero : num / den ≠ 0 := by
    have := Nat.two_pow_pos k
    omega
  have large : k ≤ (num / den).log2 := (Nat.le_log2 nonzero).2 h
  have bits : k ≤ 52 + spareBits (num / den) := by
    unfold spareBits
    omega
  have upper : 2 ^ 52 ≤ num / den / 2 ^ spareBits (num / den) := by
    rw [Nat.le_div_iff_mul_le (Nat.two_pow_pos _), ← Nat.pow_add]
    refine Nat.le_trans (Nat.pow_le_pow_right (by decide) ?_) (Nat.log2_self_le nonzero)
    unfold spareBits
    omega
  have rounded : num / den / 2 ^ spareBits (num / den) ≤
      roundDiv num (den * 2 ^ spareBits (num / den)) := by
    rw [Nat.div_div_eq_div_mul]
    exact le_roundDiv _ _
  calc 2 ^ k ≤ 2 ^ 52 * 2 ^ spareBits (num / den) := by
        rw [← Nat.pow_add]
        exact Nat.pow_le_pow_right (by decide) bits
    _ ≤ roundUnits num den := Nat.mul_le_mul_right _ (Nat.le_trans upper rounded)

theorem ofRatio_of_large (negative : Bool) {num den : Nat} (h : limit ≤ num / den) :
    ofRatio negative num den = .infinite negative := by
  have kept : limit ≤ roundUnits num den := by
    unfold limit at h ⊢
    apply le_roundUnits
    · decide
    · assumption
  rw [ofRatio, dif_neg (Nat.not_lt.2 kept)]

theorem ofRatio_cases (negative : Bool) (num den : Nat) :
    (∃ units representable, ofRatio negative num den = .finite negative units representable) ∨
      ofRatio negative num den = .infinite negative := by
  unfold ofRatio
  split
  · next below => exact .inl ⟨_, ⟨below, roundUnits_mod num den⟩, rfl⟩
  · exact .inr rfl

end Double

namespace Decimal

/-- The exponents that are not expanded overflow or vanish indeed. -/
theorem toDouble_eq_ofRatio (d : Decimal) :
    d.toDouble = .ofRatio d.negative (d.mantissa * 10 ^ d.exponent.toNat * Double.one)
      (10 ^ (-d.exponent).toNat) := by
  have powers (n : Nat) : 2 ^ (3 * n) ≤ 10 ^ n := by
    rw [Nat.pow_mul]
    exact Nat.pow_le_pow_left (by decide) n
  unfold toDouble
  split
  · next none => rw [none, Nat.zero_mul, Nat.zero_mul, Double.ofRatio_zero]
  · next some =>
    split
    · next large =>
      have below : (-d.exponent).toNat = 0 := by omega
      rw [below, Nat.pow_zero, Double.ofRatio_of_large]
      rw [Nat.div_one]
      calc Double.limit ≤ 2 ^ (3 * d.exponent.toNat) * Double.one := by
            rw [Double.limit_eq]
            apply Nat.mul_le_mul_right
            apply Nat.pow_le_pow_right
            · decide
            · omega
        _ ≤ 10 ^ d.exponent.toNat * Double.one := Nat.mul_le_mul_right _ (powers _)
        _ ≤ d.mantissa * 10 ^ d.exponent.toNat * Double.one := by
            refine Nat.mul_le_mul_right _ ?_
            exact Nat.le_mul_of_pos_left _ (Nat.pos_of_ne_zero some)
    · split
      · next small =>
        have above : d.exponent.toNat = 0 := by omega
        rw [above, Nat.pow_zero, Nat.mul_one, Double.ofRatio_of_small]
        calc 2 * (d.mantissa * Double.one)
            < 2 * (2 ^ (d.mantissa.log2 + 1) * Double.one) := by
              refine Nat.mul_lt_mul_of_pos_left ?_ (by decide)
              exact Nat.mul_lt_mul_of_pos_right Nat.lt_log2_self Double.one_pos
          _ = 2 ^ (d.mantissa.log2 + 2) * Double.one := by rw [← Nat.mul_assoc, ← Nat.pow_succ']
          _ = 2 ^ (d.mantissa.log2 + 1076) := by
              symm
              apply Double.two_pow_split
              omega
          _ ≤ 2 ^ (3 * (-d.exponent).toNat) := Nat.pow_le_pow_right (by decide) (by omega)
          _ ≤ 10 ^ (-d.exponent).toNat := powers _
      · rfl

theorem toDouble_shift (negative : Bool) (mantissa : Nat) (exponent : Int) (k : Nat) :
    toDouble ⟨negative, mantissa * 10 ^ k, exponent - k⟩ =
      toDouble ⟨negative, mantissa, exponent⟩ := by
  rw [toDouble_eq_ofRatio, toDouble_eq_ofRatio]
  refine Double.ofRatio_congr _ (Nat.pow_pos (by decide)) (Nat.pow_pos (by decide)) ?_
  have exponents : k + (exponent - k).toNat + (-exponent).toNat =
      exponent.toNat + (-(exponent - k)).toNat := by omega
  calc mantissa * 10 ^ k * 10 ^ (exponent - k).toNat * Double.one * 10 ^ (-exponent).toNat
      = mantissa * Double.one * 10 ^ (k + (exponent - k).toNat + (-exponent).toNat) := by ring
    _ = mantissa * 10 ^ exponent.toNat * Double.one * 10 ^ (-(exponent - k)).toNat := by
        rw [exponents]
        ring

theorem stripZeros_spec {fuel mantissa : Nat} (exponent : Int) (pos : 0 < mantissa)
    (h : mantissa < 10 ^ (fuel + 1)) :
    (stripZeros fuel mantissa exponent).1 % 10 ≠ 0 ∧ ∃ k : Nat,
      (stripZeros fuel mantissa exponent).1 * 10 ^ k = mantissa ∧
        (stripZeros fuel mantissa exponent).2 = exponent + k := by
  induction fuel generalizing mantissa exponent with
  | zero => exact ⟨by simp only [stripZeros]; omega, 0, by simp [stripZeros], by simp [stripZeros]⟩
  | succ fuel ih =>
    rw [stripZeros]
    split
    · next zero =>
      have less : mantissa / 10 < 10 ^ (fuel + 1) := by
        rw [Nat.div_lt_iff_lt_mul (by decide), ← Nat.pow_succ]
        exact h
      obtain ⟨last, k, same, moved⟩ := ih (exponent + 1) (by omega) less
      refine ⟨last, k + 1, ?_, ?_⟩
      · rw [Nat.pow_succ, ← Nat.mul_assoc, same]
        omega
      · rw [moved]
        omega
    · next last => exact ⟨last, 0, by simp, by simp⟩

theorem normal_spec (d : Decimal) (h : d.mantissa ≠ 0) :
    d.normal.negative = d.negative ∧ d.normal.mantissa % 10 ≠ 0 ∧ ∃ k : Nat,
      d.normal.mantissa * 10 ^ k = d.mantissa ∧ d.normal.exponent = d.exponent + k := by
  have less : d.mantissa < 10 ^ (d.mantissa.log2 + 1) :=
    Nat.lt_of_lt_of_le Nat.lt_log2_self (Nat.pow_le_pow_left (by decide) _)
  have spec := stripZeros_spec d.exponent (Nat.pos_of_ne_zero h) less
  unfold normal
  rw [if_neg h]
  exact ⟨rfl, spec⟩

theorem mantissa_unique {a b j k : Nat} (ha : a % 10 ≠ 0) (hb : b % 10 ≠ 0)
    (h : a * 10 ^ j = b * 10 ^ k) : a = b ∧ j = k := by
  induction j generalizing k with
  | zero =>
    cases k with
    | zero => exact ⟨by simpa using h, rfl⟩
    | succ k =>
      rw [Nat.pow_zero, Nat.mul_one, Nat.pow_succ, ← Nat.mul_assoc] at h
      omega
  | succ j ih =>
    cases k with
    | zero =>
      rw [Nat.pow_zero, Nat.mul_one, Nat.pow_succ, ← Nat.mul_assoc] at h
      omega
    | succ k =>
      rw [Nat.pow_succ, Nat.pow_succ, ← Nat.mul_assoc, ← Nat.mul_assoc] at h
      obtain ⟨same, places⟩ := ih (Nat.eq_of_mul_eq_mul_right (by decide) h)
      exact ⟨same, congrArg Nat.succ places⟩

theorem same_iff {d d' : Decimal} : d = d' ↔
    d.negative = d'.negative ∧ d.mantissa = d'.mantissa ∧ d.exponent = d'.exponent := by
  cases d
  cases d'
  simp

theorem normal_zero (negative : Bool) (exponent : Int) :
    normal ⟨negative, 0, exponent⟩ = ⟨negative, 0, 0⟩ := rfl

theorem normal_shift (negative : Bool) (mantissa : Nat) (exponent : Int) (k : Nat) :
    normal ⟨negative, mantissa * 10 ^ k, exponent - k⟩ = normal ⟨negative, mantissa, exponent⟩ := by
  by_cases h : mantissa = 0
  · rw [h, Nat.zero_mul, normal_zero, normal_zero]
  · have h' : mantissa * 10 ^ k ≠ 0 := Nat.mul_ne_zero h (Nat.ne_of_gt (Nat.pow_pos (by decide)))
    obtain ⟨sign, last, i, same, moved⟩ := normal_spec ⟨negative, mantissa, exponent⟩ h
    obtain ⟨sign', last', j, same', moved'⟩ :=
      normal_spec ⟨negative, mantissa * 10 ^ k, exponent - k⟩ h'
    dsimp only at same same' moved moved' sign sign'
    obtain ⟨digits, places⟩ := mantissa_unique last' last
      (j := j) (k := i + k) (by rw [same', Nat.pow_add, ← Nat.mul_assoc, same])
    rw [same_iff, sign, sign', digits, moved, moved']
    exact ⟨rfl, rfl, by omega⟩

theorem normal_padded (d : Decimal) (h : d.mantissa ≠ 0) : ∃ k : Nat,
    (⟨d.normal.negative, d.normal.mantissa * 10 ^ k, d.normal.exponent - k⟩ : Decimal) = d := by
  obtain ⟨sign, _, k, same, moved⟩ := normal_spec d h
  refine ⟨k, ?_⟩
  rw [sign, same, moved, Int.add_sub_cancel]

theorem toDouble_normal (d : Decimal) : d.normal.toDouble = d.toDouble := by
  by_cases h : d.mantissa = 0
  · simp [normal, toDouble, h]
  · obtain ⟨k, padded⟩ := normal_padded d h
    calc d.normal.toDouble
        = toDouble ⟨d.normal.negative, d.normal.mantissa * 10 ^ k, d.normal.exponent - k⟩ :=
          (toDouble_shift _ _ _ k).symm
      _ = d.toDouble := congrArg toDouble padded

end Decimal

end JsonQuery

import JsonQuery.Proofs.Number.Integer
import Mathlib.Data.Nat.Log

/-!
Rounding keeps the order. The place of the double nearest to a whole number of units is a monotone
function of these units, and the units of a double are their own place.
-/
namespace JsonQuery.Double

theorem roundDiv_mono {m n : Nat} (den : Nat) (h : m ≤ n) : roundDiv m den ≤ roundDiv n den := by
  rcases Nat.lt_or_eq_of_le (Nat.div_le_div_right h : m / den ≤ n / den) with less | same
  · calc roundDiv m den ≤ m / den + 1 := roundDiv_le m den
      _ ≤ n / den := less
      _ ≤ roundDiv n den := le_roundDiv n den
  · have rest : m % den ≤ n % den := by
      have left := Nat.div_add_mod m den
      have right := Nat.div_add_mod n den
      rw [same] at left
      omega
    unfold roundDiv
    dsimp only
    rw [same]
    split <;> split <;> omega

theorem roundDiv_mul_self (k : Nat) {den : Nat} (pos : 0 < den) : roundDiv (k * den) den = k := by
  have := roundDiv_mul_right k 1 pos
  rwa [Nat.one_mul, roundDiv_one] at this

theorem spareBits_mono {m n : Nat} (h : m ≤ n) : spareBits m ≤ spareBits n := by
  unfold spareBits
  rw [Nat.log2_eq_log_two, Nat.log2_eq_log_two]
  exact Nat.sub_le_sub_right (Nat.log_mono_right h) 52

theorem roundUnits_mono {m n : Nat} (h : m ≤ n) : roundUnits m 1 ≤ roundUnits n 1 := by
  have unfolded (k : Nat) : roundUnits k 1 = roundDiv k (2 ^ spareBits k) * 2 ^ spareBits k := by
    rw [roundUnits, Nat.div_one, Nat.one_mul]
  rcases Nat.lt_or_eq_of_le (spareBits_mono h) with less | same
  · -- Between the two lies the power of two that is the upper bit of the greater one, and rounding keeps it.
    have bits : 53 + spareBits m ≤ n.log2 := by
      unfold spareBits at less ⊢
      omega
    have nonzero : n ≠ 0 := by
      rintro rfl
      simp at bits
    have power : 2 ^ (n.log2 - spareBits m) * 2 ^ spareBits m = 2 ^ n.log2 := by
      rw [← Nat.pow_add, Nat.sub_add_cancel (by omega)]
    have below : m ≤ 2 ^ n.log2 := by
      refine Nat.le_of_lt (Nat.lt_of_lt_of_le Nat.lt_log2_self (Nat.pow_le_pow_right (by decide) ?_))
      unfold spareBits at bits
      omega
    calc roundUnits m 1 = roundDiv m (2 ^ spareBits m) * 2 ^ spareBits m := unfolded m
      _ ≤ roundDiv (2 ^ n.log2) (2 ^ spareBits m) * 2 ^ spareBits m :=
          Nat.mul_le_mul_right _ (roundDiv_mono _ below)
      _ = 2 ^ n.log2 := by rw [← power, roundDiv_mul_self _ (Nat.two_pow_pos _)]
      _ ≤ roundUnits n 1 := by
          apply le_roundUnits
          · omega
          · rw [Nat.div_one]
            exact Nat.log2_self_le nonzero
  · rw [unfolded, unfolded, same]
    exact Nat.mul_le_mul_right _ (roundDiv_mono _ h)

/-- The place of the double nearest to so many units. -/
def nearest (units : Int) : Int := signed (units < 0) (min (roundUnits units.natAbs 1) limit)

theorem natAbs_nearest (units : Int) : (nearest units).natAbs = min (roundUnits units.natAbs 1) limit := by
  rw [nearest, natAbs_signed]

theorem nearest_mono {u v : Int} (h : u ≤ v) : nearest u ≤ nearest v := by
  have rounded {m n : Nat} (le : m ≤ n) : min (roundUnits m 1) limit ≤ min (roundUnits n 1) limit :=
    min_le_min_right limit (roundUnits_mono le)
  have upper := @rounded u.natAbs v.natAbs
  have lower := @rounded v.natAbs u.natAbs
  unfold nearest signed
  split <;> split <;> simp only [decide_eq_true_eq] at * <;> omega

theorem signed_lt_zero (negative : Bool) {n : Nat} (pos : 0 < n) :
    decide (signed negative n < 0) = negative := by
  cases negative <;> simp [signed]
  omega

theorem rank?_ofRatio (negative : Bool) (num : Nat) :
    (ofRatio negative num 1).rank? = some (nearest (signed negative num)) := by
  have place : (ofRatio negative num 1).rank? = some (signed negative (min (roundUnits num 1) limit)) := by
    unfold ofRatio
    split
    · next below => rw [Nat.min_eq_left (Nat.le_of_lt below)]; rfl
    · next above => rw [Nat.min_eq_right (Nat.le_of_not_lt above)]; rfl
  rw [place, nearest, natAbs_signed]
  rcases Nat.eq_zero_or_pos num with rfl | pos
  · rw [roundUnits_of_mod (Nat.zero_mod _), Nat.zero_min]
    cases negative <;> rfl
  · rw [signed_lt_zero negative pos]

theorem rank?_ofInt (n : Int) : (ofInt n).rank? = some (nearest (n * one)) := by
  rw [ofInt, rank?_ofRatio, signed_mul, signed_natAbs]

theorem nearest_of_rank? {d : Double} {x : Int} (finite : d.isFinite = true) (rank : d.rank? = some x) :
    nearest x = x := by
  cases d with
  | nan | infinite => cases finite
  | finite negative units representable =>
    obtain rfl := Option.some.inj rank
    rw [nearest, natAbs_signed, roundUnits_of_mod representable.2,
      Nat.min_eq_left (Nat.le_of_lt representable.1)]
    have := signed_natAbs (signed negative units)
    rwa [natAbs_signed] at this

end JsonQuery.Double

import JsonQuery.Decimal.Shortest
import JsonQuery.Proofs.Number.Decimal

/-!
The shortest digits of a double read back as the double: they are looked for among those that do, and
where there are none all digits are taken.
-/
namespace JsonQuery.Decimal

theorem normal_negative (d : Decimal) : d.normal.negative = d.negative := by
  unfold normal
  split <;> rfl

theorem toDouble_of_readsAs {d : Decimal} {units : Nat} (h : d.readsAs units = true) :
    ∃ representable, d.toDouble = .finite d.negative units representable := by
  unfold readsAs at h
  rw [toDouble_eq_ofRatio] at h ⊢
  rcases Double.ofRatio_cases d.negative (d.mantissa * 10 ^ d.exponent.toNat * Double.one)
    (10 ^ (-d.exponent).toNat) with ⟨u, representable, same⟩ | same
  · rw [same] at h ⊢
    obtain rfl : u = units := by simpa using h
    exact ⟨representable, rfl⟩
  · rw [same] at h
    cases h

theorem toDouble_of_onGrid {tie : Tie} {negative : Bool} {units : Nat} {exponent : Int}
    {d : Decimal} (h : onGrid tie negative units exponent = some d) :
    ∃ representable, d.toDouble = .finite negative units representable := by
  unfold onGrid at h
  obtain ⟨below, lower, upper⟩ := neighbours units exponent
  dsimp only at h
  have reads : d.readsAs units = true := by simpa using List.find?_some h
  have sign : d.negative = negative := by
    have there := List.mem_of_find?_eq_some h
    split at there <;> simp only [List.mem_cons, List.not_mem_nil, or_false] at there <;>
      rcases there with rfl | rfl <;> rw [normal_negative]
  rw [← sign]
  exact toDouble_of_readsAs reads

theorem toDouble_every_digit (negative : Bool) (units : Nat) {k : Nat} (h : Double.one = 2 ^ k) :
    toDouble ⟨negative, units * 5 ^ k, -k⟩ = .ofRatio negative units 1 := by
  rw [toDouble_eq_ofRatio, h]
  apply Double.ofRatio_congr
  · exact Nat.pow_pos (by decide)
  · decide
  · have none : (-(k : Int)).toNat = 0 := by omega
    have all : (- -(k : Int)).toNat = k := by omega
    simp only [none, all, Nat.pow_zero, Nat.mul_one]
    rw [Nat.mul_assoc, ← Nat.mul_pow]

theorem toDouble_exact {negative : Bool} {units : Nat} (h : Double.Representable units) :
    (exact negative units).toDouble = .finite negative units h := by
  rw [← Double.ofRatio_units negative h]
  apply toDouble_every_digit
  unfold Double.one
  generalize 1074 = k
  rfl

theorem toDouble_shortestOfUnits (tie : Tie) {negative : Bool} {units : Nat}
    (h : Double.Representable units) :
    (shortestOfUnits tie negative units).toDouble = .finite negative units h := by
  unfold shortestOfUnits
  split
  · next none =>
    subst none
    rfl
  · dsimp only
    cases found : (List.range 17).findSome? fun n : Nat =>
        onGrid tie negative units (places units - (n + 1)) with
    | none => exact toDouble_exact h
    | some d =>
      obtain ⟨n, _, hit⟩ := List.exists_of_findSome?_eq_some found
      obtain ⟨_, same⟩ := toDouble_of_onGrid hit
      exact same

theorem toDouble_of_shortest? {tie : Tie} {d : Double} {x : Decimal}
    (h : shortest? tie d = some x) : x.toDouble = d := by
  cases d with
  | nan | infinite => cases h
  | finite negative units representable =>
    cases h
    exact toDouble_shortestOfUnits tie representable

theorem shortest?_isSome (tie : Tie) (d : Double) : (shortest? tie d).isSome = d.isFinite := by
  cases d <;> rfl

end JsonQuery.Decimal

import JsonQuery.Proofs.Number.Exact
import JsonQuery.Proofs.Number.Nearest

/-!
Integers on the decimal grids. Among the integers with one nearest double the shortest digits of the double
spell one that ends in the most zeros, and seventeen digits are enough for some.
-/
namespace JsonQuery

namespace Double

theorem roundDiv_of_close {num den q : Nat} (lower : 2 * (q * den) < 2 * num + den)
    (upper : 2 * num < 2 * (q * den) + den) : roundDiv num den = q := by
  have split := Nat.div_add_mod num den
  have rest : num % den < den := Nat.mod_lt _ (by omega)
  rw [Nat.mul_comm] at split
  unfold roundDiv
  dsimp only
  generalize num / den = whole, num % den = part at *
  rcases Nat.lt_trichotomy whole q with less | rfl | more
  · have next : (whole + 1) * den ≤ q * den := Nat.mul_le_mul_right den less
    rw [Nat.succ_mul] at next
    have reached : whole + 1 = q := by
      refine Nat.le_antisymm less (Nat.le_of_lt_succ (Nat.lt_of_mul_lt_mul_right (a := den) ?_))
      rw [Nat.succ_mul, Nat.succ_mul]
      omega
    subst reached
    rw [Nat.succ_mul] at lower upper
    rw [if_pos (by omega)]
  · rw [if_neg (by omega)]
  · have next : (q + 1) * den ≤ whole * den := Nat.mul_le_mul_right den more
    rw [Nat.succ_mul] at next
    omega

section Binade

variable {k m p : Nat}

theorem two_pow_spareBits_mul_one (large : 52 ≤ p) (lower : 2 ^ p ≤ m) (upper : m < 2 ^ (p + 1)) :
    2 ^ spareBits (m * one) = 2 ^ (p - 52) * one := by
  obtain ⟨s, same⟩ := exists_one_eq
  have nonzero : m * one ≠ 0 :=
    Nat.mul_ne_zero (by have := Nat.two_pow_pos p; omega) (Nat.ne_of_gt one_pos)
  have bits : (m * one).log2 = p + s := by
    rw [Nat.log2_eq_iff nonzero, same, Nat.add_right_comm, Nat.pow_add, Nat.pow_add _ (p + 1)]
    exact ⟨Nat.mul_le_mul_right _ lower, Nat.mul_lt_mul_of_pos_right upper (Nat.two_pow_pos s)⟩
  rw [spareBits, bits, same]
  exact two_pow_split (by omega)

theorem dvd_of_representable (large : 52 ≤ p) (lower : 2 ^ p ≤ k) (upper : k < 2 ^ (p + 1))
    (representable : Representable (k * one)) : 2 ^ (p - 52) ∣ k := by
  have aligned := Nat.dvd_of_mod_eq_zero representable.2
  rw [two_pow_spareBits_mul_one large lower upper] at aligned
  exact Nat.dvd_of_mul_dvd_mul_right one_pos aligned

/-- Whether the double nearest to the integer `m` is the integer `k`. -/
def RoundsTo (m k : Nat) : Prop := roundUnits (m * one) 1 = k * one

theorem roundsTo_self (representable : Representable (k * one)) : RoundsTo k k :=
  roundUnits_of_mod representable.2

theorem RoundsTo.of_between {j : Nat} (hm : RoundsTo m k) (hj : RoundsTo j k) {i : Nat} (lower : m ≤ i)
    (upper : i ≤ j) : RoundsTo i k := by
  apply Nat.le_antisymm
  · rw [← hj]
    exact roundUnits_mono (Nat.mul_le_mul_right one upper)
  · rw [← hm]
    exact roundUnits_mono (Nat.mul_le_mul_right one lower)

/-- An integer that is nearer to a double than half the step rounds to it, unless it is below a power of two
where the steps get smaller. -/
theorem roundsTo_of_close (large : 52 ≤ p) (lower : 2 ^ p ≤ m) (upper : k < 2 ^ (p + 1))
    (aligned : 2 ^ (p - 52) ∣ k) (left : 2 * k < 2 * m + 2 ^ (p - 52))
    (right : 2 * m < 2 * k + 2 ^ (p - 52)) : RoundsTo m k := by
  obtain ⟨q, rfl⟩ := exists_eq_mul_left_of_dvd aligned
  have binade : 2 ^ (p + 1) = 2 ^ 53 * 2 ^ (p - 52) := two_pow_split (by omega)
  have inside : q + 1 ≤ 2 ^ 53 := by
    rw [binade] at upper
    exact Nat.lt_of_mul_lt_mul_right upper
  have below : m < 2 ^ (p + 1) := by
    have room := Nat.mul_le_mul_right (2 ^ (p - 52)) inside
    rw [Nat.succ_mul, ← binade] at room
    omega
  rw [RoundsTo, roundUnits, Nat.div_one, Nat.one_mul, two_pow_spareBits_mul_one large lower below,
    roundDiv_mul_right _ _ one_pos, roundDiv_of_close left right, Nat.mul_assoc]

/-- A grid of less than a step has a point that rounds to a double: the nearest one, if the power of two
is out of its reach, and beyond the next power of two also the next one above. -/
theorem exists_roundsTo {c : Nat} (pos : 0 < c) (large : 52 ≤ p) (step : c < 2 ^ (p - 52))
    (room : 2 ^ p + c ≤ k) (representable : Representable (k * one)) : ∃ j, RoundsTo (j * c) k := by
  have nonzero : k ≠ 0 := Nat.ne_of_gt (Nat.lt_of_lt_of_le (Nat.add_pos_right _ pos) room)
  have lower : 2 ^ k.log2 ≤ k := Nat.log2_self_le nonzero
  have upper : k < 2 ^ (k.log2 + 1) := Nat.lt_log2_self
  have binade : p ≤ k.log2 := (Nat.le_log2 nonzero).2 (by omega)
  have aligned := dvd_of_representable (by omega) lower upper representable
  rcases Nat.lt_or_eq_of_le binade with later | same
  · have half : 2 * c ≤ 2 ^ (k.log2 - 52) := by
      calc 2 * c ≤ 2 * 2 ^ (p - 52) := by omega
        _ = 2 ^ (p - 52 + 1) := Nat.pow_succ'.symm
        _ ≤ 2 ^ (k.log2 - 52) := Nat.pow_le_pow_right (by decide) (by omega)
    refine ⟨(k + c - 1) / c, ?_⟩
    have split := Nat.div_add_mod (k + c - 1) c
    have rest := Nat.mod_lt (k + c - 1) pos
    rw [Nat.mul_comm] at split
    exact roundsTo_of_close (by omega) (by omega) upper aligned (by omega) (by omega)
  · rw [← same] at aligned upper
    refine ⟨(2 * k + c) / (2 * c), ?_⟩
    have split := Nat.div_add_mod (2 * k + c) (2 * c)
    have rest := Nat.mod_lt (2 * k + c) (Nat.mul_pos Nat.two_pos pos)
    rw [Nat.mul_comm, Nat.mul_left_comm] at split
    exact roundsTo_of_close large (by omega) upper aligned (by omega) (by omega)

end Binade

theorem roundsTo_mul_two_pow {q : Nat} (bits : q ≤ 2 ^ 53) (p : Nat) :
    RoundsTo (q * 2 ^ p) (q * 2 ^ p) := by
  obtain ⟨s, same⟩ := exists_one_eq
  rw [RoundsTo, same, Nat.mul_assoc, ← Nat.pow_add]
  exact roundUnits_of_mod (mod_spareBits_mul q (p + s) bits)

theorem roundsTo_ten_pow {e : Nat} (h : e ≤ 22) : RoundsTo (10 ^ e) (10 ^ e) := by
  have bits : 5 ^ e ≤ 2 ^ 53 := Nat.le_trans (Nat.pow_le_pow_right (by decide) h) (by decide)
  rw [show 10 = 5 * 2 by rfl, Nat.mul_pow]
  exact roundsTo_mul_two_pow bits e

theorem RoundsTo.pos {m k : Nat} (hit : RoundsTo m k) (pos : 0 < k) : 0 < m := by
  refine Nat.pos_of_ne_zero fun zero => Nat.ne_of_gt (Nat.mul_pos pos one_pos) ?_
  rw [← hit, zero, Nat.zero_mul, roundUnits_of_mod (Nat.zero_mod _)]

theorem RoundsTo.lt_two_pow {m k p : Nat} (hit : RoundsTo m k) (less : k < 2 ^ p) : m < 2 ^ p := by
  by_contra more
  have power := roundsTo_mul_two_pow (q := 1) (by decide) p
  rw [Nat.one_mul] at power
  have order := roundUnits_mono (Nat.mul_le_mul_right one (Nat.le_of_not_lt more))
  rw [hit, power] at order
  exact Nat.not_le.2 less (Nat.le_of_mul_le_mul_right order one_pos)

/-- Seventeen digits are enough for an integer double of 63 bits. -/
theorem exists_roundsTo_digits {k : Nat} (pos : 0 < k) (range : k < 2 ^ 63)
    (representable : Representable (k * one)) :
    ∃ e j, 10 ^ e ≤ k ∧ k < 10 ^ (e + 17) ∧ RoundsTo (j * 10 ^ e) k := by
  rcases Nat.lt_or_ge k (10 ^ 17) with small | large
  · exact ⟨0, k, pos, small, by rw [Nat.pow_zero, Nat.mul_one]; exact roundsTo_self representable⟩
  rcases Nat.lt_or_ge k (10 ^ 18) with middle | great
  · obtain ⟨j, hit⟩ := exists_roundsTo (p := 56) (c := 10 ^ 1) (by decide) (by decide) (by decide) (by omega)
      representable
    exact ⟨1, j, by omega, middle, hit⟩
  · obtain ⟨j, hit⟩ := exists_roundsTo (p := 59) (c := 10 ^ 2) (by decide) (by decide) (by decide) (by omega)
      representable
    exact ⟨2, j, by omega, by omega, hit⟩

end Double

theorem exists_of_findSome?_range {α : Type} {f : Nat → Option α} {n : Nat} {a : α}
    (h : (List.range n).findSome? f = some a) : ∃ i < n, f i = some a ∧ ∀ i' < i, f i' = none := by
  obtain ⟨before, i, after, split, hit, missed⟩ := List.findSome?_eq_some_iff.1 h
  have mem (i' : Nat) : i' < n ↔ i' ∈ before ++ i :: after := by rw [← split, List.mem_range]
  have sorted : (before ++ i :: after).Pairwise (· < ·) := split ▸ List.pairwise_lt_range
  have later := (List.pairwise_cons.1 (List.pairwise_append.1 sorted).2.1).1
  refine ⟨i, (mem i).2 (by simp), hit, fun i' less => missed i' ?_⟩
  rcases List.mem_append.1 ((mem i').1 (Nat.lt_trans less ((mem i).2 (by simp)))) with there | there
  · exact there
  · rcases List.mem_cons.1 there with rfl | there
    · omega
    · have := later i' there
      omega

theorem exists_of_findSome?_downward {α : Type} {f : Int → Option α} {top low n : Nat} (below : low < top)
    (near : top ≤ low + n) (there : f low ≠ none) : ∃ (e : Nat) (a : α),
      ((List.range n).findSome? fun i : Nat => f (top - (i + 1))) = some a ∧ f e = some a ∧
      ∀ e' : Nat, e < e' → e' < top → f e' = none := by
  have exponent {i e : Nat} (h : top = e + (i + 1)) : (top : Int) - (i + 1) = e := by omega
  cases found : (List.range n).findSome? fun i : Nat => f (top - (i + 1)) with
  | none =>
    have nowhere := List.findSome?_eq_none_iff.1 found (top - (low + 1)) (List.mem_range.2 (by omega))
    rw [exponent (e := low) (by omega)] at nowhere
    exact absurd nowhere there
  | some a =>
    obtain ⟨i, inside, here, before⟩ := exists_of_findSome?_range found
    have missed {e : Nat} (more : top - (i + 1) < e ∨ top ≤ i) (less : e < top) : f e = none := by
      rw [← exponent (i := top - (e + 1)) (by omega)]
      exact before _ (by omega)
    have early : i < top := by
      by_contra late
      exact there (missed (.inr (Nat.le_of_not_lt late)) below)
    rw [exponent (e := top - (i + 1)) (by omega)] at here
    exact ⟨_, a, rfl, here, fun e' more less => missed (.inl more) less⟩

namespace Decimal

open Double

variable {tie : Tie} {negative : Bool} {k e j m : Nat} {d : Decimal}

theorem places_mul_one (pos : 0 < k) : places (k * one) = (Nat.toDigits 10 k).length := by
  unfold places
  generalize zeros : 400 = z
  rw [Nat.mul_right_comm, Nat.mul_div_cancel _ Double.one_pos, toDigits_mul_ten_pow pos z, List.length_append,
    List.length_replicate]
  omega

theorem neighbours_mul_one (k e : Nat) : neighbours (k * one) e =
    (k / 10 ^ e, one * (k % 10 ^ e), one * 10 ^ e - one * (k % 10 ^ e)) := by
  have below : (-(e : Int)).toNat = 0 := by omega
  unfold neighbours
  dsimp only
  rw [below, Int.toNat_natCast, Nat.pow_zero, Nat.mul_one, Nat.mul_comm k, Nat.mul_div_mul_left _ _ Double.one_pos,
    Nat.mul_mod_mul_left]

section Grids

variable (representable : Representable (k * one))
include representable

theorem readsAs_normal : (normal ⟨negative, j, e⟩).readsAs (k * one) = true ↔
    RoundsTo (j * 10 ^ e) k := by
  have rounded : toDouble ⟨negative, j, e⟩ = ofRatio negative (j * 10 ^ e * one) 1 := by
    rw [toDouble_eq_ofRatio]
    simp
  rw [readsAs, toDouble_normal, rounded, RoundsTo, ofRatio]
  split
  · next finite =>
    split at finite
    · cases finite
      exact beq_iff_eq
    · cases finite
  · next other =>
    split at other
    · exact absurd rfl (other _ _ _)
    · next above =>
      refine iff_of_false (by simp) fun same => above ?_
      rw [same]
      exact representable.1

/-- A hit on the grid of an exponent is a multiple of the power of ten that rounds to the number, which
is the number itself if it is on the grid. -/
theorem roundsTo_of_onGrid (h : onGrid tie negative (k * one) e = some d) :
    ∃ j, d = normal ⟨negative, j, e⟩ ∧ RoundsTo (j * 10 ^ e) k ∧ (10 ^ e ∣ k → j * 10 ^ e = k) := by
  rw [onGrid, neighbours_mul_one] at h
  dsimp only at h
  by_cases multiple : 10 ^ e ∣ k
  · have itself : k / 10 ^ e * 10 ^ e = k := Nat.div_mul_cancel multiple
    have reads : RoundsTo (k / 10 ^ e * 10 ^ e) k := by
      rw [itself]
      exact roundsTo_self representable
    have apart : 0 < one * 10 ^ e := Nat.mul_pos Double.one_pos (Nat.pow_pos (by decide))
    rw [Nat.mod_eq_zero_of_dvd multiple, Nat.mul_zero, Nat.sub_zero, if_neg (by omega),
      List.find?_cons_of_pos (by exact (readsAs_normal representable).2 reads)] at h
    exact ⟨k / 10 ^ e, (Option.some.inj h).symm, reads, fun _ => itself⟩
  · have reads := List.find?_some h
    have neighbour : d = normal ⟨negative, k / 10 ^ e, e⟩ ∨ d = normal ⟨negative, k / 10 ^ e + 1, e⟩ := by
      have there := List.mem_of_find?_eq_some h
      split at there <;> simp only [List.mem_cons, List.not_mem_nil, or_false] at there
      · exact there.symm
      · exact there
    rcases neighbour with rfl | rfl
    · exact ⟨_, rfl, (readsAs_normal representable).1 reads, fun yes => absurd yes multiple⟩
    · exact ⟨_, rfl, (readsAs_normal representable).1 reads, fun yes => absurd yes multiple⟩

theorem not_roundsTo_of_onGrid (h : onGrid tie negative (k * one) e = none) (multiple : 10 ^ e ∣ m) :
    ¬ RoundsTo m k := by
  have itself := roundsTo_self representable
  have neither : ¬ RoundsTo (k / 10 ^ e * 10 ^ e) k ∧ ¬ RoundsTo ((k / 10 ^ e + 1) * 10 ^ e) k := by
    have reads (j : Nat) : (normal ⟨negative, j, e⟩).readsAs (k * one) = true ↔ RoundsTo (j * 10 ^ e) k :=
      readsAs_normal representable
    rw [onGrid, neighbours_mul_one] at h
    dsimp only at h
    rw [← reads, ← reads]
    split at h <;> simp_all
  obtain ⟨i, rfl⟩ := exists_eq_mul_left_of_dvd multiple
  intro hit
  rcases Nat.lt_or_ge (k / 10 ^ e) i with above | below
  · refine neither.2 (itself.of_between hit ?_ (Nat.mul_le_mul_right _ above))
    rw [Nat.succ_mul]
    exact Nat.le_of_lt (Nat.lt_div_mul_add (Nat.pow_pos (by decide)))
  · exact neither.1 (hit.of_between itself (Nat.mul_le_mul_right _ below) (Nat.div_mul_le_self _ _))

theorem lt_length_of_roundsTo (pos : 0 < k) (range : k < 2 ^ 63) (hit : RoundsTo m k) (multiple : 10 ^ e ∣ m) :
    e < (Nat.toDigits 10 k).length := by
  by_contra beyond
  have digits : (Nat.toDigits 10 k).length ≤ 22 :=
    (Nat.length_toDigits_le_iff (by decide) (by decide)).2 (by omega)
  have less : k < 10 ^ (Nat.toDigits 10 k).length :=
    (Nat.length_toDigits_le_iff (by decide) Nat.length_toDigits_pos).1 (Nat.le_refl _)
  have more : 10 ^ (Nat.toDigits 10 k).length ≤ m :=
    Nat.le_trans (Nat.pow_le_pow_right (by decide) (Nat.le_of_not_lt beyond)) (Nat.le_of_dvd (hit.pos pos) multiple)
  have power := (roundsTo_self representable).of_between hit (Nat.le_of_lt less) more
  have same := (roundsTo_ten_pow digits).symm.trans power
  exact Nat.ne_of_gt less (Nat.eq_of_mul_eq_mul_right Double.one_pos same)

/-- The shortest digits of an integer double spell an integer that rounds to it. None of these integers
ends in more zeros, and the double itself is taken if it ends in as many. -/
theorem shortestOfUnits_integral (tie : Tie) (negative : Bool) (pos : 0 < k) (range : k < 2 ^ 63) :
    ∃ j e : Nat, shortestOfUnits tie negative (k * one) = normal ⟨negative, j, e⟩ ∧ RoundsTo (j * 10 ^ e) k ∧
      (10 ^ e ∣ k → j * 10 ^ e = k) ∧ ∀ m e', RoundsTo m k → 10 ^ e' ∣ m → e' ≤ e := by
  have some : k * one ≠ 0 := Nat.mul_ne_zero (Nat.ne_of_gt pos) (Nat.ne_of_gt Double.one_pos)
  obtain ⟨low, i, reached, enough, near⟩ := exists_roundsTo_digits pos range representable
  have last : (Nat.toDigits 10 k).length ≤ low + 17 :=
    (Nat.length_toDigits_le_iff (by decide) (by omega)).2 enough
  have there : onGrid tie negative (k * one) low ≠ none := fun none =>
    not_roundsTo_of_onGrid representable none (Nat.dvd_mul_left _ i) near
  obtain ⟨e, d, found, here, above⟩ := exists_of_findSome?_downward ((ten_pow_le_iff pos).1 reached) last there
  obtain ⟨j, shape, hit, itself⟩ := roundsTo_of_onGrid representable here
  refine ⟨j, e, ?_, hit, itself, fun m e' other multiple => ?_⟩
  · rw [shortestOfUnits, if_neg some, places_mul_one pos]
    dsimp only
    rw [found, Option.getD_some, shape]
  · by_contra more
    have inside := lt_length_of_roundsTo representable pos range other multiple
    exact not_roundsTo_of_onGrid representable (above e' (Nat.lt_of_not_le more) inside) multiple other

end Grids

theorem plain_normal (negative : Bool) (pos : 0 < j) (e : Nat) :
    (normal ⟨negative, j, e⟩).plain = sign negative ++ Nat.toDigits 10 (j * 10 ^ e) := by
  obtain ⟨sameSign, last, z, same, moved⟩ :=
    normal_spec ⟨negative, j, e⟩ (Nat.ne_of_gt pos)
  dsimp only at sameSign same moved
  have positive : 0 < (normal ⟨negative, j, e⟩).mantissa := by omega
  have whole : 0 ≤ (normal ⟨negative, j, e⟩).exponent := by omega
  have places : (normal ⟨negative, j, e⟩).exponent.toNat = z + e := by omega
  rw [plain, if_pos whole, sameSign, zeros, places, digits, ← toDigits_mul_ten_pow positive, Nat.pow_add,
    ← Nat.mul_assoc, same]

end Decimal

end JsonQuery

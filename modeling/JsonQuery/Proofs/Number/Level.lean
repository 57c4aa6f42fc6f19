import JsonQuery.Proofs.Number.Equality
import JsonQuery.Proofs.Number.Nearest

/-!
Numbers at one place in the order of numbers, which is the place of their doubles. Such numbers are equal
unless they are different integers, for integers are told apart before they are rounded. So equality of
numbers is reflexive but for a NaN, and transitive but for such integers.
-/
namespace JsonQuery

namespace Double

theorem rank?_of_toInt? {d : Double} {n : Int} (h : d.toInt? = some n) : d.rank? = (ofInt n).rank? := by
  obtain ⟨negative, representable, rfl, sign⟩ := exists_of_toInt? h
  have place : signed negative (n.natAbs * one) = n * one := by rw [signed_mul, sign]
  rw [rank?_ofInt, ← place]
  exact congrArg some (nearest_of_rank? (d := .finite negative _ representable) rfl rfl).symm

end Double

namespace Number

/-- The place of a number in the order of numbers; a NaN has none, nor has a token that is no number. -/
def place? (n : Number) : Option Int := n.toDouble?.bind Double.rank?

def token? : Number → Option (List Char)
  | .double _ => none
  | .token text => some (trimmed text)

def Level (a b : Number) : Prop := ∃ x, a.place? = some x ∧ b.place? = some x

def Twin (a b : Number) : Prop := ∃ cs, a.token? = some cs ∧ b.token? = some cs

def Apart (a b : Number) : Prop := ∃ m n, a.toInteger? = some m ∧ b.toInteger? = some n ∧ m ≠ n

variable {a b c : Number}

theorem place?_of_toInteger? {n : Int} (h : a.toInteger? = some n) :
    a.place? = (Double.ofInt n).rank? := by
  cases a with
  | double d =>
    rw [toInteger?] at h
    split at h
    · exact Double.rank?_of_toInt? h
    · cases h
  | token text =>
    obtain ⟨k, rfl, read⟩ := Double.read?_of_readInt? (Option.filter_eq_some_iff.1 h).1
    rw [place?, toDouble?, read, Option.bind_some, Decimal.toDouble_eq_ofRatio, Double.rank?_ofInt,
      ← Double.signed_mul]
    simp [Double.rank?_ofRatio]

theorem level_of_toInteger? {n : Int} (ha : a.toInteger? = some n) (hb : b.toInteger? = some n) :
    a.Level b := by
  have place := Double.rank?_ofInt n
  exact ⟨_, (place?_of_toInteger? ha).trans place, (place?_of_toInteger? hb).trans place⟩

theorem Level.trans (first : a.Level b) (second : b.Level c) : a.Level c := by
  obtain ⟨x, ha, hb⟩ := first
  obtain ⟨y, hb', hc⟩ := second
  obtain rfl := Option.some.inj (hb.symm.trans hb')
  exact ⟨x, ha, hc⟩

theorem Twin.trans (first : a.Twin b) (second : b.Twin c) : a.Twin c := by
  obtain ⟨s, ha, hb⟩ := first
  obtain ⟨t, hb', hc⟩ := second
  obtain rfl := Option.some.inj (hb.symm.trans hb')
  exact ⟨s, ha, hc⟩

/-- All that is read of a token is its characters. -/
theorem Twin.reads (h : a.Twin b) : a.toInteger? = b.toInteger? ∧ a.place? = b.place? := by
  obtain ⟨cs, ha, hb⟩ := h
  cases a with
  | double => cases ha
  | token s =>
    cases b with
    | double => cases hb
    | token t =>
      have same : trimmed s = trimmed t := Option.some.inj (ha.trans hb.symm)
      simp only [toInteger?, place?, toDouble?, same, and_self]

theorem Twin.not_apart (h : a.Twin b) : ¬ a.Apart b := by
  rintro ⟨m, n, left, right, different⟩
  rw [h.reads.1, right] at left
  exact different (Option.some.inj left).symm

theorem not_apart_self : ¬ a.Apart a := by
  rintro ⟨m, n, left, right, different⟩
  exact different (Option.some.inj (left.symm.trans right))

theorem sameValue_iff : a.sameValue b = true ↔ a.Level b ∧ ¬ a.Apart b := by
  unfold sameValue
  split
  · next m n left right =>
    rw [beq_iff_eq]
    constructor
    · rintro rfl
      exact ⟨level_of_toInteger? left right, fun ⟨_, _, left', right', different⟩ =>
        different (Option.some.inj (left'.symm.trans (left.trans (right.symm.trans right'))))⟩
    · rintro ⟨-, together⟩
      by_contra different
      exact together ⟨m, n, left, right, different⟩
  · next inexact =>
    have together : ¬ a.Apart b := fun ⟨m, n, left, right, _⟩ => inexact m n left right
    rw [and_iff_left together]
    unfold Level place?
    cases a.toDouble? <;> cases b.toDouble? <;> simp [Double.same_iff_rank]

theorem same_iff : a.same b = true ↔ a.Twin b ∨ (a.Level b ∧ ¬ a.Apart b) := by
  rw [← sameValue_iff]
  cases a with
  | double => cases b <;> simp [Twin, token?] <;> rfl
  | token s =>
    cases b with
    | double => simp [Twin, token?]; rfl
    | token t =>
      have : (token s).same (token t) = (trimmed s == trimmed t || (token s).sameValue (token t)) := rfl
      simp [this, Twin, token?, @eq_comm _ (trimmed t) (trimmed s)]

theorem not_apart_of_same (h : a.same b = true) : ¬ a.Apart b :=
  (same_iff.1 h).elim Twin.not_apart And.right

/-- Numbers that equal the same number are equal unless they are different integers. -/
theorem same_trans_iff_not_apart (first : a.same b = true) (second : b.same c = true) :
    a.same c = true ↔ ¬ a.Apart c := by
  refine ⟨not_apart_of_same, fun together => ?_⟩
  rcases same_iff.1 first with twin | ⟨level, -⟩ <;> rcases same_iff.1 second with twin' | ⟨level', -⟩
  · exact same_iff.2 (.inl (twin.trans twin'))
  · refine same_iff.2 (.inr ⟨?_, together⟩)
    rwa [Level, twin.reads.2]
  · refine same_iff.2 (.inr ⟨?_, together⟩)
    rwa [Level, ← twin'.reads.2]
  · exact same_iff.2 (.inr ⟨level.trans level', together⟩)

theorem same_self_iff : a.same a = true ↔ ∀ d : Double, d.isNaN = true → a ≠ .double d := by
  rw [same_iff, and_iff_left not_apart_self]
  cases a with
  | token text => simp [Twin, token?]
  | double d =>
    have number : (∀ d' : Double, d'.isNaN = true → Number.double d ≠ .double d') ↔ ¬ d.isNaN = true :=
      ⟨fun h nan => h d nan rfl, fun h d' nan same => h (Number.double.inj same ▸ nan)⟩
    rw [number]
    cases d <;> simp [Twin, token?, Level, place?, toDouble?, Double.rank?, Double.isNaN]

end Number

end JsonQuery

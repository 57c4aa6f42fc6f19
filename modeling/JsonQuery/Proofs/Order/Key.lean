import JsonQuery.Function.Order
import JsonQuery.Proofs.Number.Equality
import JsonQuery.Proofs.Order.Text
import Mathlib.Data.Sum.Order
import Mathlib.Order.Compare

/-!
Keys by which elements are ordered and told apart. Keys of one kind without a NaN are ordered as their
places in a linear order are; keys are the same if they have the same canonical key.
-/
namespace JsonQuery

/-- The key that a value is: the numeric value of a number, or a text. -/
def Value.key? : Value → Option SortKey
  | .number n => n.toDouble?.map .number
  | .string s => some (.text s)
  | _ => none

namespace Double

variable {a b : Double}

theorem signed_injective {m n : Bool} {p q : Nat} (h : signed m p = signed n q)
    (nonzero : signed m p ≠ 0) : m = n ∧ p = q := by
  cases m <;> cases n <;> simp only [signed, if_true, if_false, Bool.false_eq_true] at h nonzero <;>
    simp <;> omega

theorem rank?_injective {x : Int} (left : a.rank? = some x) (right : b.rank? = some x)
    (nonzero : x ≠ 0) : a = b := by
  cases a with
  | nan => cases left
  | infinite m =>
    cases left
    cases b with
    | nan => cases right
    | infinite n => rw [(signed_injective (Option.some.inj right).symm nonzero).1]
    | finite n units representable =>
      have := (signed_injective (Option.some.inj right).symm nonzero).2
      have := representable.1
      omega
  | finite m units representable =>
    cases left
    cases b with
    | nan => cases right
    | infinite n =>
      have := (signed_injective (Option.some.inj right).symm nonzero).2
      have := representable.1
      omega
    | finite n =>
      obtain ⟨rfl, rfl⟩ := signed_injective (Option.some.inj right).symm nonzero
      rfl

theorem same_zero_iff : a.same (.zero false) = true ↔ a.rank? = some 0 := by
  have zero : (Double.zero false).rank? = some 0 := rfl
  simp [same_iff_rank, zero]

theorem nan_eq_of_toBits {m n : Bool} {f g : Nat} {p : Payload f} {q : Payload g}
    (h : (nan m f p).toBits = (nan n g q).toBits) : nan m f p = nan n g q := by
  have left := p.2
  have right := q.2
  rw [nan.injEq]
  cases m <;> cases n <;> simp only [toBits, isNegative, magnitudeBits] at h <;> simp at h ⊢ <;> omega

theorem same_or_bits_iff :
    (a.same b = true ∨ (a.isNaN = true ∧ b.isNaN = true ∧ a.toBits = b.toBits)) ↔
      (if a.same (.zero false) then Double.zero false else a) =
        if b.same (.zero false) then Double.zero false else b := by
  constructor
  · rintro (same | ⟨left, right, bits⟩)
    · obtain ⟨x, left, right⟩ := same_iff_rank.1 same
      by_cases zero : x = 0
      · subst zero
        rw [if_pos (same_zero_iff.2 left), if_pos (same_zero_iff.2 right)]
      · rw [rank?_injective left right zero]
    · cases a with
      | nan =>
        cases b with
        | nan => rw [nan_eq_of_toBits bits]
        | infinite | finite => cases right
      | infinite | finite => cases left
  · intro h
    have zero : (Double.zero false).same (.zero false) = true := same_zero_iff.2 rfl
    split_ifs at h with left right right
    · exact .inl (same_iff_rank.2 ⟨0, same_zero_iff.1 left, same_zero_iff.1 right⟩)
    · exact absurd (h ▸ zero) right
    · exact absurd (h ▸ zero) left
    · subst h
      cases number : a.isNaN with
      | true => exact .inr ⟨rfl, rfl, rfl⟩
      | false =>
        obtain ⟨x, place⟩ := exists_rank? number
        exact .inl (same_iff_rank.2 ⟨x, place, place⟩)

end Double

namespace SortKey

def isNaN : SortKey → Bool
  | .number d => d.isNaN
  | .text _ => false

/-- Whether a key is less than another one of its kind: numbers by value, and texts by their bytes. -/
def Before : SortKey → SortKey → Prop
  | .number a, .number b => a.less b = true
  | .text s, .text t => Text.bytes s < Text.bytes t
  | _, _ => False

def Level : SortKey → SortKey → Prop
  | .number a, .number b => a.same b = true
  | .text s, .text t => s = t
  | _, _ => False

/-- Whether keys are equal or NaNs with the same bits. -/
def Same : SortKey → SortKey → Prop
  | .number a, .number b =>
    a.same b = true ∨ (a.isNaN = true ∧ b.isNaN = true ∧ a.toBits = b.toBits)
  | .text s, .text t => s = t
  | _, _ => False

def OneKind (keys : List SortKey) : Prop := ∃ kind, ∀ k ∈ keys, k.kind = kind

theorem OneKind.eq {keys : List SortKey} (h : OneKind keys) {a b : SortKey} (ha : a ∈ keys)
    (hb : b ∈ keys) : a.kind = b.kind := by
  obtain ⟨kind, all⟩ := h
  exact (all a ha).trans (all b hb).symm

variable {a b : SortKey}

section Order

theorem order_eq_lt_iff : a.order b = .lt ↔ a.Before b := by
  cases a with
  | number a =>
    cases b with
    | number b =>
      simp only [order, Before, Double.less]
      cases a.compare? b <;> simp
    | text t => simp [order, Before]
  | text s =>
    cases b with
    | number b => simp [order, Before]
    | text t =>
      rw [order, Before, Text.bytes_lt_iff]
      exact compareOfLessAndEq_eq_lt

theorem order_swap (a b : SortKey) : (a.order b).swap = b.order a := by
  cases a with
  | number a =>
    cases b with
    | number b =>
      simp only [order, Double.compare?]
      cases a.rank? <;> cases b.rank? <;> simp [← Std.OrientedOrd.eq_swap]
    | text t => rfl
  | text s =>
    cases b with
    | number b => rfl
    | text t => exact Std.OrientedOrd.eq_swap.symm

theorem order_eq_gt_iff : a.order b = .gt ↔ b.Before a := by
  rw [← order_eq_lt_iff, ← order_swap]
  cases b.order a <;> simp

theorem Before.not_before (h : a.Before b) : ¬ b.Before a := by
  rw [← order_eq_lt_iff] at h
  rw [← order_eq_gt_iff, h]
  nofun

theorem Level.not_before (h : a.Level b) : ¬ b.Before a := by
  rw [← order_eq_gt_iff]
  cases a <;> cases b <;> simp_all [Level, order, Double.same]

theorem Level.symm (h : a.Level b) : b.Level a := by
  cases a with
  | number a =>
    cases b with
    | number b =>
      obtain ⟨x, left, right⟩ := Double.same_iff_rank.1 h
      exact Double.same_iff_rank.2 ⟨x, right, left⟩
    | text t => cases h
  | text s =>
    cases b with
    | number b => cases h
    | text t => exact Eq.symm h

/-- A place in a linear order of all keys, in which a NaN stands anywhere. -/
def place : SortKey → Int ⊕ₗ String
  | .number d => toLex (.inl (d.rank?.getD 0))
  | .text s => toLex (.inr s)

variable (kinds : a.kind = b.kind) (left : a.isNaN = false) (right : b.isNaN = false)
include kinds left right

theorem before_iff_place : a.Before b ↔ a.place < b.place := by
  cases a with
  | number a =>
    cases b with
    | number b =>
      obtain ⟨x, hx⟩ := Double.exists_rank? left
      obtain ⟨y, hy⟩ := Double.exists_rank? right
      simp [Before, place, Double.less_iff, hx, hy]
    | text t => cases kinds
  | text s =>
    cases b with
    | number b => cases kinds
    | text t => simp [Before, place, Text.bytes_lt_iff]

theorem level_iff_place : a.Level b ↔ a.place = b.place := by
  cases a with
  | number a =>
    cases b with
    | number b =>
      obtain ⟨x, hx⟩ := Double.exists_rank? left
      obtain ⟨y, hy⟩ := Double.exists_rank? right
      simp [Level, place, Double.same_iff_rank, hx, hy, @eq_comm Int x]
    | text t => cases kinds
  | text s =>
    cases b with
    | number b => cases kinds
    | text t => simp [Level, place]

theorem order_eq_compare_place : a.order b = compare a.place b.place := by
  have less := before_iff_place kinds left right
  have greater := before_iff_place kinds.symm right left
  rw [← order_eq_lt_iff, ← compare_lt_iff_lt] at less
  rw [← order_eq_gt_iff, ← compare_gt_iff_gt] at greater
  cases h : compare a.place b.place with
  | lt => exact less.2 h
  | gt => exact greater.2 h
  | eq => cases h' : a.order b <;> simp_all

end Order

/-- Keys of one kind without a NaN are in order. -/
theorem transCmp_order {n : Nat} {table : Fin n → SortKey} (kinds : ∀ i j, (table i).kind = (table j).kind)
    (numbers : ∀ i, (table i).isNaN = false) : Std.TransCmp fun i j => (table i).order (table j) := by
  have placed : (fun i j => (table i).order (table j)) = compareOn fun i => (table i).place :=
    funext fun i => funext fun j => order_eq_compare_place (kinds i j) (numbers i) (numbers j)
  rw [placed]
  infer_instance

section Same

theorem same_iff_canonical : a.Same b ↔ a.canonical = b.canonical := by
  cases a with
  | number a =>
    cases b with
    | number b => exact Double.same_or_bits_iff.trans (by simp [canonical])
    | text t => simp [Same, canonical]
  | text s =>
    cases b with
    | number b => simp [Same, canonical]
    | text t => simp [Same, canonical]

end Same

end SortKey

end JsonQuery

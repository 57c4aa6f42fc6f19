import JsonQuery.Function.Sequence
import JsonQuery.Function.Order
import JsonQuery.Proofs.Simulation.Outcome
import Mathlib.Data.List.Forall2

/-!
Related sequences. Taking an element, slicing, exchanging places, and sorting or selecting by equal keys
turn lists whose elements are related one by one into such lists.
-/
namespace JsonQuery

variable {α β : Type} {R : α → β → Prop}

theorem rel_cases {x : Option α} {y : Option β} (h : Option.Rel R x y) :
    (x = none ∧ y = none) ∨ ∃ a b, x = some a ∧ y = some b ∧ R a b := by
  cases h with
  | none => exact .inl ⟨rfl, rfl⟩
  | some h => exact .inr ⟨_, _, rfl, rfl, h⟩

theorem rel_getD {x : Option α} {y : Option β} {a : α} {b : β} (h : Option.Rel R x y)
    (default : R a b) : R (x.getD a) (y.getD b) := by
  cases h with
  | none => exact default
  | some h => exact h

theorem rel_map {γ δ : Type} {S : γ → δ → Prop} {f : α → γ} {g : β → δ} {x : Option α}
    {y : Option β} (h : Option.Rel R x y) (next : ∀ a b, R a b → S (f a) (g b)) :
    Option.Rel S (x.map f) (y.map g) := by
  cases h with
  | none => exact .none
  | some h => exact .some (next _ _ h)

theorem rel_getElem? {xs : List α} {ys : List β} (h : List.Forall₂ R xs ys) (i : Nat) :
    Option.Rel R xs[i]? ys[i]? := by
  induction h generalizing i with
  | nil => exact .none
  | cons head _ ih =>
    cases i with
    | zero => exact .some head
    | succ i => exact ih i

theorem forall₂_iff_getElem? {xs : List α} {ys : List β} :
    List.Forall₂ R xs ys ↔ ∀ i : Nat, Option.Rel R xs[i]? ys[i]? := by
  refine ⟨rel_getElem?, fun h => ?_⟩
  induction xs generalizing ys with
  | nil =>
    cases ys with
    | nil => exact .nil
    | cons => cases h 0
  | cons x xs ih =>
    cases ys with
    | nil => cases h 0
    | cons y ys => exact .cons (Option.rel_some_some.1 (h 0)) (ih fun i => h (i + 1))

theorem exists_rel_of_mem {xs : List α} {ys : List β} (h : List.Forall₂ R xs ys) {a : α}
    (there : a ∈ xs) : ∃ b ∈ ys, R a b := by
  induction h with
  | nil => cases there
  | cons head _ ih =>
    rcases List.mem_cons.1 there with rfl | there
    · exact ⟨_, .head _, head⟩
    · obtain ⟨b, other, related⟩ := ih there
      exact ⟨b, .tail _ other, related⟩

theorem rel_zip {γ : Type} {xs : List α} {ys : List β} (h : List.Forall₂ R xs ys) (zs : List γ) :
    List.Forall₂ (fun p q => R p.1 q.1 ∧ p.2 = q.2) (xs.zip zs) (ys.zip zs) := by
  induction h generalizing zs with
  | nil => exact .nil
  | cons head _ ih =>
    cases zs with
    | nil => exact .nil
    | cons z zs => exact .cons ⟨head, rfl⟩ (ih zs)

theorem rel_head? {xs : List α} {ys : List β} (h : List.Forall₂ R xs ys) :
    Option.Rel R xs.head? ys.head? := by
  cases h with
  | nil => exact .none
  | cons head _ => exact .some head

theorem rel_tail {xs : List α} {ys : List β} (h : List.Forall₂ R xs ys) :
    List.Forall₂ R xs.tail ys.tail := by
  cases h with
  | nil => exact .nil
  | cons _ rest => exact rest

theorem rel_set {xs : List α} {ys : List β} (h : List.Forall₂ R xs ys) (i : Nat) {a : α} {b : β}
    (new : R a b) : List.Forall₂ R (xs.set i a) (ys.set i b) := by
  induction h generalizing i with
  | nil => exact .nil
  | cons head rest ih =>
    cases i with
    | zero => exact .cons new rest
    | succ i => exact .cons head (ih i)

theorem rel_of_pairs {zs : List (α × β)} (h : ∀ z ∈ zs, R z.1 z.2) :
    List.Forall₂ R (zs.map Prod.fst) (zs.map Prod.snd) := by
  rw [List.forall₂_map_left_iff, List.forall₂_map_right_iff]
  exact List.forall₂_same.2 h

theorem pairs_of_rel {xs : List α} {ys : List β} (h : List.Forall₂ R xs ys) :
    ∃ zs : List (α × β), zs.map Prod.fst = xs ∧ zs.map Prod.snd = ys ∧ ∀ z ∈ zs, R z.1 z.2 := by
  induction h with
  | nil => exact ⟨[], rfl, rfl, by simp⟩
  | @cons a b _ _ head _ ih =>
    obtain ⟨zs, rfl, rfl, related⟩ := ih
    refine ⟨(a, b) :: zs, rfl, rfl, fun z hz => ?_⟩
    rcases List.mem_cons.1 hz with rfl | hz
    · exact head
    · exact related z hz

namespace Slice

theorem walk_rel {xs : List α} {ys : List β} (h : List.Forall₂ R xs ys) (step : Int64) (more : Int64 → Bool)
    (room : Nat) (place : Int64) :
    List.Forall₂ R (walk xs.toArray step more room place) (walk ys.toArray step more room place) := by
  induction room generalizing place with
  | zero => exact .nil
  | succ room ih =>
    unfold walk
    split
    · apply List.rel_append
      · rw [List.getElem?_toArray, List.getElem?_toArray]
        rcases rel_cases (rel_getElem? h place.toInt.toNat) with ⟨hx, hy⟩ | ⟨x, y, hx, hy, here⟩
        · rw [hx, hy]
          exact .nil
        · rw [hx, hy]
          exact .cons here .nil
      · cases checkedAdd place step with
        | none => exact .nil
        | some next => exact ih next
    · exact .nil

theorem bidirectional_corresponds (T : Tolerance) {xs : List α} {ys : List β}
    (h : List.Forall₂ R xs ys) (bounds : SliceBounds) :
    Corresponds T (List.Forall₂ R) (bidirectional xs bounds) (bidirectional ys bounds) := by
  unfold bidirectional
  simp only [h.length_eq]
  split
  · exact .error (T.refl _ rfl)
  · exact .ok (walk_rel h _ _ _ _)

theorem forward_corresponds (T : Tolerance) {xs : List α} {ys : List β}
    (h : List.Forall₂ R xs ys) (start stop step : Int64) :
    Corresponds T (List.Forall₂ R) (forward xs start stop step)
      (forward ys start stop step) := by
  unfold forward
  simp only [h.length_eq]
  split
  · exact .error (T.refl _ rfl)
  · split
    · exact .ok .nil
    · exact .ok (walk_rel h _ _ _ _)

end Slice

/-- Related elements that compare alike are put into the same order. -/
theorem Sorter.sort_rel (s : Sorter) {order : α → α → Ordering} {order' : β → β → Ordering}
    (alike : ∀ a b c d, R a b → R c d → order a c = order' b d) {xs : List α} {ys : List β}
    (h : List.Forall₂ R xs ys) : Option.Rel (List.Forall₂ R) (s.sort order xs) (s.sort order' ys) := by
  obtain ⟨zs, rfl, rfl, related⟩ := pairs_of_rel h
  have same : ∀ z ∈ zs, ∀ w ∈ zs, order z.1 w.1 = order' z.2 w.2 := fun z hz w hw =>
    alike _ _ _ _ (related z hz) (related w hw)
  rw [s.sort_map, s.sort_map, s.sort_congr same]
  cases sorted : s.sort (fun z w : α × β => order' z.2 w.2) zs with
  | none => exact .none
  | some ws =>
    have moved := s.sort_perm sorted
    exact .some (rel_of_pairs fun w hw => related w (moved.mem_iff.1 hw))

namespace Function

def SameKey {κ : Type} (R : α → β → Prop) (a : κ × α) (b : κ × β) : Prop := a.1 = b.1 ∧ R a.2 b.2

theorem distinctAfter_rel {key : α → SortKey} {key' : β → SortKey} (same : ∀ a b, R a b → key a = key' b)
    (seen : List SortKey) {xs : List α} {ys : List β} (h : List.Forall₂ R xs ys) :
    List.Forall₂ R (distinctAfter key seen xs) (distinctAfter key' seen ys) := by
  induction h generalizing seen with
  | nil => exact .nil
  | cons head _ ih =>
    unfold distinctAfter
    simp only [same _ _ head]
    split
    · exact ih seen
    · exact .cons head (ih _)

theorem swap_rel {a : Array α} {b : Array β} (h : List.Forall₂ R a.toList b.toList)
    (i j : Nat) :
    List.Forall₂ R (a.swapIfInBounds i j).toList (b.swapIfInBounds i j).toList := by
  have size : a.size = b.size := by simpa using h.length_eq
  rw [Array.swapIfInBounds_def, Array.swapIfInBounds_def]
  by_cases hi : i < a.size
  · by_cases hj : j < a.size
    · have here (k : Nat) (hk : k < a.size) (hk' : k < b.size) : R a[k] b[k] := by
        have := rel_getElem? h k
        rw [Array.getElem?_toList, Array.getElem?_toList, Array.getElem?_eq_getElem hk,
          Array.getElem?_eq_getElem hk'] at this
        cases this with
        | some related => exact related
      rw [dif_pos hi, dif_pos hj, dif_pos (size ▸ hi), dif_pos (size ▸ hj)]
      simp only [Array.swap, Array.toList_set]
      exact rel_set (rel_set h i (here j hj (size ▸ hj))) j (here i hi (size ▸ hi))
    · rw [dif_pos hi, dif_neg hj, dif_pos (size ▸ hi), dif_neg (size ▸ hj)]
      exact h
  · rw [dif_neg hi, dif_neg (size ▸ hi)]
    exact h

theorem exchange_rel {R : Value → Value → Prop} {vs ws : List Value}
    (h : List.Forall₂ R vs ws) (swaps : List (Nat × Nat)) :
    List.Forall₂ R (exchange swaps vs) (exchange swaps ws) := by
  unfold exchange
  have start : List.Forall₂ R vs.toArray.toList ws.toArray.toList := h
  generalize vs.toArray = a at start
  generalize ws.toArray = b at start
  induction swaps generalizing a b with
  | nil => exact start
  | cons swap rest ih => exact ih _ _ (swap_rel start swap.1 swap.2)

end Function

end JsonQuery

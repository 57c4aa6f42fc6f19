/-!
Sorting by comparisons. A sorter sees nothing of the elements but how the ones at two places compare. If
the comparisons are those of an order, it puts the places in that order, and places that compare equal
stay as they are. If they contradict each other, the places come in any order, or the sorter gives up.
-/
namespace JsonQuery

structure Sorter where
  places? {n : Nat} (order : Fin n → Fin n → Ordering) : Option (List (Fin n))
  perm {n : Nat} {order : Fin n → Fin n → Ordering} {places : List (Fin n)}
    (h : places? order = some places) : places.Perm (List.finRange n)
  stable {n : Nat} {order : Fin n → Fin n → Ordering} (consistent : Std.TransCmp order) :
    ∃ places, places? order = some places ∧
      places.Pairwise fun i j => order i j = .lt ∨ (order i j = .eq ∧ i < j)

namespace Sorter

variable {α : Type}

def sort (s : Sorter) (order : α → α → Ordering) (items : List α) : Option (List α) :=
  let elements := items.toArray
  (s.places? fun i j : Fin elements.size => order elements[i] elements[j]).map fun places =>
    places.map (elements[·])

section Elements

variable (s : Sorter) {β : Type}

theorem sort_congr {order order' : α → α → Ordering} {items : List α}
    (same : ∀ a ∈ items, ∀ b ∈ items, order a b = order' a b) : s.sort order items = s.sort order' items := by
  have each (i j : Fin items.toArray.size) :
      order items.toArray[i] items.toArray[j] = order' items.toArray[i] items.toArray[j] :=
    same _ (by simp) _ (by simp)
  unfold sort
  simp only [each]

theorem places?_cast {m n : Nat} (size : m = n) {order : Fin m → Fin m → Ordering}
    {order' : Fin n → Fin n → Ordering} (same : ∀ i j, order i j = order' (i.cast size) (j.cast size)) :
    s.places? order' = (s.places? order).map (List.map (Fin.cast size)) := by
  subst size
  have : order = order' := funext fun i => funext fun j => same i j
  simp [this]

/-- A sorter does not see what it moves. -/
theorem sort_map (f : α → β) (order : β → β → Ordering) (items : List α) :
    s.sort order (items.map f) = (s.sort (fun a b => order (f a) (f b)) items).map (List.map f) := by
  have size : items.toArray.size = (items.map f).toArray.size := by simp
  have moved : (s.places? fun i j => order (items.map f).toArray[i] (items.map f).toArray[j]) =
      (s.places? fun i j => order (f items.toArray[i]) (f items.toArray[j])).map (List.map (Fin.cast size)) :=
    s.places?_cast size (by simp)
  unfold sort
  dsimp only
  rw [moved, Option.map_map, Option.map_map]
  congr 1
  funext places
  simp

theorem finRange_map_getElem (items : List α) :
    (List.finRange items.toArray.size).map (items.toArray[·]) = items := by
  apply List.ext_getElem <;> simp

theorem sort_finRange {n : Nat} (order : Fin n → Fin n → Ordering) :
    s.sort order (List.finRange n) = s.places? order := by
  have size : n = (List.finRange n).toArray.size := by simp
  have moved : (s.places? fun i j => order (List.finRange n).toArray[i] (List.finRange n).toArray[j]) =
      (s.places? order).map (List.map (Fin.cast size)) := s.places?_cast size (by simp)
  have gathered : (fun places => places.map ((List.finRange n).toArray[·])) ∘ List.map (Fin.cast size) = id := by
    funext places
    apply List.ext_getElem <;> simp
  unfold sort
  dsimp only
  rw [moved, Option.map_map, gathered, Option.map_id, id]

theorem sort_perm {order : α → α → Ordering} {items sorted : List α} (h : s.sort order items = some sorted) :
    sorted.Perm items := by
  obtain ⟨places, found, rfl⟩ := Option.map_eq_some_iff.1 h
  have moved := (s.perm found).map (items.toArray[·])
  rwa [finRange_map_getElem] at moved

end Elements

section Merging

variable {n : Nat}

def Precedes (order : Fin n → Fin n → Ordering) (i j : Fin n) : Prop :=
  order i j = .lt ∨ (order i j = .eq ∧ i ≤ j)

instance (order : Fin n → Fin n → Ordering) : DecidableRel (Precedes order) :=
  fun i j => inferInstanceAs (Decidable (order i j = .lt ∨ (order i j = .eq ∧ i ≤ j)))

/-- Moves a place forward past the sorted ones that it is less than. These are given from the last on. -/
def insert (order : Fin n → Fin n → Ordering) (i : Fin n) : List (Fin n) → List (Fin n)
  | [] => [i]
  | j :: rest => if order i j = .lt then j :: insert order i rest else i :: j :: rest

def inserted (order : Fin n → Fin n → Ordering) : List (Fin n) :=
  ((List.finRange n).foldl (fun sorted i => insert order i sorted) []).reverse

def merged (order : Fin n → Fin n → Ordering) : List (Fin n) :=
  (List.finRange n).mergeSort fun i j => decide (Precedes order i j)

section Perm

variable (order : Fin n → Fin n → Ordering)

theorem insert_perm (i : Fin n) (sorted : List (Fin n)) : (insert order i sorted).Perm (i :: sorted) := by
  induction sorted with
  | nil => exact .refl _
  | cons j rest ih =>
    rw [insert]
    split
    · exact (ih.cons j).trans (.swap i j rest)
    · exact .refl _

theorem foldl_insert_perm (places sorted : List (Fin n)) :
    (places.foldl (fun sorted i => insert order i sorted) sorted).Perm (places.reverse ++ sorted) := by
  induction places generalizing sorted with
  | nil => exact .refl _
  | cons i rest ih =>
    rw [List.foldl_cons, List.reverse_cons, List.append_assoc]
    exact (ih _).trans ((insert_perm order i sorted).append_left _)

theorem inserted_perm : (inserted order).Perm (List.finRange n) := by
  have moved := foldl_insert_perm order (List.finRange n) []
  rw [List.append_nil] at moved
  exact (List.reverse_perm _).trans (moved.trans (List.reverse_perm _))

theorem merged_perm : (merged order).Perm (List.finRange n) := List.mergeSort_perm _ _

end Perm

variable {order : Fin n → Fin n → Ordering}

theorem pairwise_of_perm {places : List (Fin n)} (perm : places.Perm (List.finRange n))
    (ordered : places.Pairwise (Precedes order)) :
    places.Pairwise fun i j => order i j = .lt ∨ (order i j = .eq ∧ i < j) := by
  have distinct : places.Pairwise (· ≠ ·) := perm.nodup_iff.2 (List.nodup_finRange n)
  refine (ordered.and distinct).imp fun {i j} related => ?_
  rcases related.1 with less | ⟨level, before⟩
  · exact .inl less
  · exact .inr ⟨level, Nat.lt_of_le_of_ne before fun same => related.2 (Fin.ext same)⟩

variable [Std.TransCmp order]

theorem Precedes.trans {i j k : Fin n} (first : Precedes order i j) (next : Precedes order j k) :
    Precedes order i k := by
  rcases first with less | ⟨level, before⟩
  · rcases next with less' | ⟨level', _⟩
    · exact .inl (Std.TransCmp.lt_trans less less')
    · exact .inl (Std.TransCmp.lt_of_lt_of_eq less level')
  · rcases next with less' | ⟨level', before'⟩
    · exact .inl (Std.TransCmp.lt_of_eq_of_lt level less')
    · exact .inr ⟨Std.TransCmp.eq_trans level level', Nat.le_trans before before'⟩

theorem precedes_total (i j : Fin n) : Precedes order i j ∨ Precedes order j i := by
  have swap : order j i = (order i j).swap := Std.OrientedCmp.eq_swap
  unfold Precedes
  rw [swap]
  cases order i j with
  | lt | gt => simp
  | eq => exact (Nat.le_total i j).imp (fun before => .inr ⟨rfl, before⟩) fun before => .inr ⟨rfl, before⟩

theorem precedes_of_not_lt {i j : Fin n} (more : order i j ≠ .lt) (before : j ≤ i) : Precedes order j i := by
  have swap : order j i = (order i j).swap := Std.OrientedCmp.eq_swap
  unfold Precedes
  rw [swap]
  cases level : order i j with
  | lt => exact absurd level more
  | gt => exact .inl rfl
  | eq => exact .inr ⟨rfl, before⟩

theorem pairwise_insert {i : Fin n} {sorted : List (Fin n)} (later : ∀ j ∈ sorted, j ≤ i)
    (ordered : sorted.Pairwise fun k j => Precedes order j k) :
    (insert order i sorted).Pairwise fun k j => Precedes order j k := by
  induction sorted with
  | nil => exact List.pairwise_singleton _ _
  | cons j rest ih =>
    obtain ⟨behind, others⟩ := List.pairwise_cons.1 ordered
    rw [insert]
    split
    next less =>
      refine .cons (fun k mem => ?_) (ih (fun k mem => later k (.tail _ mem)) others)
      rcases List.mem_cons.1 ((insert_perm order i rest).mem_iff.1 mem) with rfl | mem
      · exact .inl less
      · exact behind k mem
    next more =>
      have here := precedes_of_not_lt more (later j (.head _))
      refine .cons (fun k mem => ?_) ordered
      rcases List.mem_cons.1 mem with rfl | mem
      · exact here
      · exact (behind k mem).trans here

theorem pairwise_foldl_insert {places sorted : List (Fin n)} (ascending : places.Pairwise (· ≤ ·))
    (later : ∀ i ∈ places, ∀ j ∈ sorted, j ≤ i) (ordered : sorted.Pairwise fun k j => Precedes order j k) :
    (places.foldl (fun sorted i => insert order i sorted) sorted).Pairwise fun k j => Precedes order j k := by
  induction places generalizing sorted with
  | nil => exact ordered
  | cons i rest ih =>
    obtain ⟨first, others⟩ := List.pairwise_cons.1 ascending
    refine ih others (fun k hk j hj => ?_) (pairwise_insert (later i (.head _)) ordered)
    rcases List.mem_cons.1 ((insert_perm order i sorted).mem_iff.1 hj) with rfl | mem
    · exact first k hk
    · exact later k (.tail _ hk) j mem

theorem pairwise_inserted : (inserted order).Pairwise (Precedes order) := by
  have ascending : (List.finRange n).Pairwise (· ≤ ·) := (List.pairwise_lt_finRange n).imp Nat.le_of_lt
  exact List.pairwise_reverse.2 (pairwise_foldl_insert ascending (by simp) .nil)

theorem pairwise_merged : (merged order).Pairwise (Precedes order) := by
  have ordered : (merged order).Pairwise fun i j => decide (Precedes order i j) = true := by
    apply List.pairwise_mergeSort
    · intro i j k first next
      exact decide_eq_true ((of_decide_eq_true first).trans (of_decide_eq_true next))
    · intro i j
      simpa using precedes_total i j
  exact ordered.imp of_decide_eq_true

end Merging

/-- Up to twenty places are sorted by insertion. More are merged, and the sorter gives up if some of them
are then in the wrong order, as only comparisons that contradict each other leave them. -/
def merging : Sorter where
  places? {n} order :=
    if n ≤ 20 then some (inserted order)
    else if (merged order).Pairwise (Precedes order) then some (merged order) else none
  perm h := by
    split at h
    · cases h
      exact inserted_perm _
    · split at h
      · cases h
        exact merged_perm _
      · cases h
  stable {n order} consistent := by
    by_cases few : n ≤ 20
    · exact ⟨_, if_pos few, pairwise_of_perm (inserted_perm order) pairwise_inserted⟩
    · exact ⟨_, (if_neg few).trans (if_pos pairwise_merged), pairwise_of_perm (merged_perm order) pairwise_merged⟩

theorem not_pairwise_of_cycle {n : Nat} {precedes : Fin n → Fin n → Prop} {places : List (Fin n)}
    {i j k : Fin n} (hi : i ∈ places) (hj : j ∈ places) (hk : k ∈ places) (ij : i ≠ j ∧ ¬ precedes i j)
    (jk : j ≠ k ∧ ¬ precedes j k) (ki : k ≠ i ∧ ¬ precedes k i) : ¬ places.Pairwise precedes := by
  intro ordered
  obtain ⟨a, ha, rfl⟩ := List.getElem_of_mem hi
  obtain ⟨b, hb, rfl⟩ := List.getElem_of_mem hj
  obtain ⟨c, hc, rfl⟩ := List.getElem_of_mem hk
  -- Each of the three stands behind the next one.
  have behind {x y : Nat} (hx : x < places.length) (hy : y < places.length)
      (h : places[x] ≠ places[y] ∧ ¬ precedes places[x] places[y]) : y < x := by
    rcases Nat.lt_trichotomy x y with less | rfl | less
    · exact absurd (List.pairwise_iff_getElem.1 ordered x y hx hy less) h.2
    · exact absurd rfl h.1
    · exact less
  have := behind ha hb ij
  have := behind hb hc jk
  have := behind hc ha ki
  omega

/-- The sorter gives up on three places among many of which none may come before the next one. -/
theorem merging_of_cycle {n : Nat} {order : Fin n → Fin n → Ordering} (many : 20 < n) {i j k : Fin n}
    (ij : i ≠ j ∧ ¬ Precedes order i j) (jk : j ≠ k ∧ ¬ Precedes order j k)
    (ki : k ≠ i ∧ ¬ Precedes order k i) : merging.places? order = none := by
  have all (i : Fin n) : i ∈ merged order := (merged_perm order).mem_iff.2 (List.mem_finRange i)
  exact (if_neg (Nat.not_le.2 many)).trans (if_neg (not_pairwise_of_cycle (all i) (all j) (all k) ij jk ki))

end Sorter

end JsonQuery

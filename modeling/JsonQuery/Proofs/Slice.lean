import JsonQuery.Slice
import Mathlib.Algebra.Order.Ring.Int
import Mathlib.Tactic.Positivity.Basic
import Mathlib.Tactic.Ring

/-!
What a slice takes. In unbounded integers the places of a slice are an arithmetic progression between two
bounds. Words of 64 bits come to the same items: on the way no sum leaves their range unnoticed, no item is
read outside the list, and the walk ends at the stop and not for lack of room.
-/
namespace JsonQuery.Slice

variable {α : Type}

section Places

/-- Whether a place comes before the stop in the direction of the step. -/
def Before (step place stop : Int) : Prop := (0 < step ∧ place < stop) ∨ (step < 0 ∧ stop < place)

/-- A place counted from the end if it is negative, and moved to the nearest one that a walk may start from
or stop at: with a negative step these are the places before the items and those of the items. -/
def reach (length step n : Int) : Int :=
  let counted := if n < 0 then n + length else n
  if 0 < step then max 0 (min counted length) else max (-1) (min counted (length - 1))

/-- Where a slice starts, in unbounded integers; the step is not zero. -/
def first (bounds : SliceBounds) (length step : Int) : Int :=
  match bounds.start with
  | some n => reach length step n.toInt
  | none => if 0 < step then 0 else length - 1

def last (bounds : SliceBounds) (length step : Int) : Int :=
  match bounds.stop with
  | some n => reach length step n.toInt
  | none => if 0 < step then length else -1

/-- Whether a list consists of the items at `start`, `start + step` and so on as far as these places come
before `stop`. There has to be an item at each of them. -/
def Selects (items : List α) (start stop step : Int) (selected : List α) : Prop :=
  ∀ k : Nat,
    (Before step (start + k * step) stop →
      ∃ i < items.length, start + k * step = i ∧ selected[k]? = items[i]?) ∧
    (¬ Before step (start + k * step) stop → selected[k]? = none)

theorem ahead_iff (step stop place : Int64) :
    ahead step stop place = true ↔ Before step.toInt place.toInt stop.toInt := by
  simp [ahead, Before, Int64.lt_iff_toInt_lt]

theorem not_before_add {step place stop : Int} (past : ¬ Before step place stop) (k : Nat) :
    ¬ Before step (place + k * step) stop := by
  unfold Before at past ⊢
  rcases lt_trichotomy step 0 with back | rfl | forth
  · have : (k : Int) * step ≤ 0 := mul_nonpos_of_nonneg_of_nonpos (by omega) back.le
    omega
  · omega
  · have : 0 ≤ (k : Int) * step := by positivity
    omega

theorem selects_nil {items : List α} {start stop step : Int} (past : ¬ Before step start stop) :
    Selects items start stop step [] := fun k =>
  ⟨fun before => absurd before (not_before_add past k), fun _ => rfl⟩

theorem selects_cons {items : List α} {start stop step : Int} (before : Before step start stop) {i : Nat}
    (inside : i < items.length) (here : start = i) {rest : List α}
    (more : Selects items (start + step) stop step rest) :
    Selects items start stop step (items[i] :: rest) := by
  intro k
  cases k with
  | zero =>
    have place : start + (0 : Nat) * step = start := by simp
    rw [place]
    exact ⟨fun _ => ⟨i, inside, here, by simp⟩, (absurd before ·)⟩
  | succ k =>
    have place : start + (k + 1 : Nat) * step = start + step + k * step := by push_cast; ring
    rw [place, List.getElem?_cons_succ]
    exact more k

end Places

section Guarded

def word? (n : Nat) : Option Int64 := if n < 2 ^ 63 then some (Int64.ofNat n) else none

/-- `clamp` with its sums checked. -/
def clamp? (length bound step : Int64) : Option Int64 :=
  if bound < 0 then
    (checkedAdd bound length).map fun shifted =>
      if 0 ≤ shifted then shifted else if step < 0 then -1 else 0
  else if length ≤ bound then
    if step < 0 then checkedAdd length (-1) else some length
  else some bound

/-- `walk` with nothing in place of the result if it reads outside the items, or has not come to its end
when it has no room left. -/
def walk? (items : Array α) (step : Int64) (more : Int64 → Bool) (room : Nat) (place : Int64) :
    Option (List α) :=
  if more place then
    match room with
    | 0 => none
    | room + 1 => do
      let item ← if 0 ≤ place then items[place.toInt.toNat]? else none
      match checkedAdd place step with
      | some next => return item :: (← walk? items step more room next)
      | none => return [item]
  else some []

def startOf (bounds : SliceBounds) (length step : Int64) : Int64 :=
  match bounds.start with
  | some n => clamp length n step
  | none => if step < 0 then length - 1 else 0

def stopOf (bounds : SliceBounds) (length step : Int64) : Int64 :=
  match bounds.stop with
  | some n => clamp length n step
  | none => if step < 0 then -1 else length

theorem bidirectional_eq_walk (items : List α) {bounds : SliceBounds} (walks : bounds.step.getD 1 ≠ 0) :
    bidirectional items bounds = .ok (walk items.toArray (bounds.step.getD 1)
      (ahead (bounds.step.getD 1) (stopOf bounds (.ofNat items.length) (bounds.step.getD 1))) items.length
      (startOf bounds (.ofNat items.length) (bounds.step.getD 1))) := by
  simp only [bidirectional, walks, if_false]
  rfl

def startOf? (bounds : SliceBounds) (length step : Int64) : Option Int64 :=
  match bounds.start with
  | some n => clamp? length n step
  | none => if step < 0 then checkedAdd length (-1) else some 0

def stopOf? (bounds : SliceBounds) (length step : Int64) : Option Int64 :=
  match bounds.stop with
  | some n => clamp? length n step
  | none => some (if step < 0 then -1 else length)

/-- `bidirectional` with the length, the sums, the accesses and the room all checked. -/
def bidirectional? (items : List α) (bounds : SliceBounds) : Option (Except Fault (List α)) :=
  let step := bounds.step.getD 1
  if step = 0 then some (.error (.slice .zeroStep))
  else do
    let length ← word? items.length
    let start ← startOf? bounds length step
    let stop ← stopOf? bounds length step
    let selected ← walk? items.toArray step (ahead step stop) items.length start
    return .ok selected

end Guarded

section Sums

theorem checkedAdd_eq_some_iff {a b sum : Int64} :
    checkedAdd a b = some sum ↔ sum.toInt = a.toInt + b.toInt := by
  have low := sum.le_toInt
  have high := sum.toInt_lt
  dsimp only [checkedAdd]
  split
  next inside =>
    rw [Option.some_inj, ← Int64.toInt_inj, Int64.toInt_ofInt_of_le inside.1 inside.2, eq_comm]
  next => simp; omega

theorem checkedAdd_eq_none_iff {a b : Int64} :
    checkedAdd a b = none ↔ a.toInt + b.toInt < -2 ^ 63 ∨ 2 ^ 63 ≤ a.toInt + b.toInt := by
  dsimp only [checkedAdd]
  split <;> simp <;> omega

theorem toInt_add_of_range {a b : Int64} (low : -2 ^ 63 ≤ a.toInt + b.toInt)
    (high : a.toInt + b.toInt < 2 ^ 63) : (a + b).toInt = a.toInt + b.toInt := by
  rw [Int64.toInt_add, Int.bmod_eq_of_le] <;> omega

end Sums

section Words

variable {length : Int64} (positive : 0 ≤ length.toInt)
include positive

theorem pred_exact : checkedAdd length (-1) = some (length - 1) ∧
    (length - 1).toInt = length.toInt - 1 := by
  have high := length.toInt_lt
  have value : (length - 1).toInt = length.toInt - 1 := by
    rw [Int64.toInt_sub, Int.bmod_eq_of_le] <;> simp <;> omega
  exact ⟨checkedAdd_eq_some_iff.2 (by simp [value]; omega), value⟩

theorem clamp_exact {step : Int64} (walks : step ≠ 0) (bound : Int64) :
    clamp? length bound step = some (clamp length bound step) ∧
      (clamp length bound step).toInt = reach length.toInt step.toInt bound.toInt := by
  have high := length.toInt_lt
  have low := bound.le_toInt
  have moves : step.toInt ≠ 0 := fun h => walks (Int64.toInt_inj.1 h)
  have pred := pred_exact positive
  by_cases negative : bound.toInt < 0
  · have sum : (bound + length).toInt = bound.toInt + length.toInt :=
      toInt_add_of_range (by omega) (by omega)
    have added : checkedAdd bound length = some (bound + length) := checkedAdd_eq_some_iff.2 sum
    simp only [clamp?, clamp, reach, Int64.lt_iff_toInt_lt, Int64.le_iff_toInt_le, Int64.toInt_zero,
      negative, added, sum, if_true, Option.map_some, true_and]
    split_ifs <;> simp [-Int64.toInt_add, sum] <;> omega
  · simp only [clamp?, clamp, reach, Int64.lt_iff_toInt_lt, Int64.le_iff_toInt_le, Int64.toInt_zero,
      negative, pred.1, if_false]
    split_ifs <;> simp [pred.2] <;> omega

end Words

section Walk

variable {items : List α} {step stop : Int64}

/-- From a place that a walk may start from, it comes to the stop with the room that is left, and on the
way there is an item wherever it looks. -/
theorem walk_exact (size : items.length < 2 ^ 63) (low : -1 ≤ stop.toInt)
    (high : stop.toInt ≤ items.length) {room : Nat} {place : Int64}
    (forth : 0 < step.toInt → 0 ≤ place.toInt ∧ stop.toInt - place.toInt ≤ room)
    (back : step.toInt < 0 → place.toInt < items.length ∧ place.toInt - stop.toInt ≤ room) :
    walk? items.toArray step (ahead step stop) room place =
        some (walk items.toArray step (ahead step stop) room place) ∧
      Selects items place.toInt stop.toInt step.toInt (walk items.toArray step (ahead step stop) room place) := by
  induction room generalizing place with
  | zero =>
    have past : ¬ Before step.toInt place.toInt stop.toInt := by
      unfold Before
      omega
    simp [walk?, walk, ahead_iff, past, selects_nil past]
  | succ room ih =>
    unfold walk? walk
    by_cases before : Before step.toInt place.toInt stop.toInt
    · have inside : 0 ≤ place.toInt ∧ place.toInt < items.length := by
        unfold Before at before
        omega
      have there : (0 : Int64) ≤ place := Int64.le_iff_toInt_le.2 inside.1
      obtain ⟨i, here⟩ := Int.eq_ofNat_of_zero_le inside.1
      have bound : i < items.length := by omega
      have item : items[i]? = some items[i] := List.getElem?_eq_getElem bound
      rw [if_pos ((ahead_iff ..).2 before), if_pos ((ahead_iff ..).2 before)]
      simp only [there, here, Int.toNat_natCast, List.getElem?_toArray, item, if_true]
      cases added : checkedAdd place step with
      | none =>
        have out := checkedAdd_eq_none_iff.1 added
        have past : ¬ Before step.toInt (place.toInt + step.toInt) stop.toInt := by
          unfold Before
          omega
        simpa [here] using selects_cons before bound here (selects_nil past)
      | some next =>
        have sum := checkedAdd_eq_some_iff.1 added
        have further := @ih next (by omega) (by omega)
        rw [sum] at further
        simpa [further.1, here] using selects_cons before bound here further.2
    · simp [ahead_iff, before, selects_nil before]

end Walk

section Bounds

variable (bounds : SliceBounds)

theorem first_range {length : Int} (step : Int) (positive : 0 ≤ length) :
    (0 < step → 0 ≤ first bounds length step) ∧ (step < 0 → first bounds length step < length) := by
  unfold first
  cases bounds.start <;> simp only [reach] <;> omega

theorem last_range {length : Int} (step : Int) (positive : 0 ≤ length) :
    -1 ≤ last bounds length step ∧ last bounds length step ≤ length := by
  unfold last
  cases bounds.stop <;> simp only [reach] <;> omega

variable {length step : Int64} (positive : 0 ≤ length.toInt) (walks : step ≠ 0)
include positive walks

theorem startOf_exact : startOf? bounds length step = some (startOf bounds length step) ∧
    (startOf bounds length step).toInt = first bounds length.toInt step.toInt := by
  have moves : step.toInt ≠ 0 := fun h => walks (Int64.toInt_inj.1 h)
  unfold startOf? startOf first
  cases bounds.start with
  | some n => exact clamp_exact positive walks n
  | none =>
    have pred := pred_exact positive
    simp only [Int64.lt_iff_toInt_lt, Int64.toInt_zero, pred.1]
    split_ifs <;> simp [pred.2, -Int64.toInt_sub] <;> omega

theorem stopOf_exact : stopOf? bounds length step = some (stopOf bounds length step) ∧
    (stopOf bounds length step).toInt = last bounds length.toInt step.toInt := by
  have moves : step.toInt ≠ 0 := fun h => walks (Int64.toInt_inj.1 h)
  unfold stopOf? stopOf last
  cases bounds.stop with
  | some n => exact clamp_exact positive walks n
  | none =>
    simp only [Int64.lt_iff_toInt_lt, Int64.toInt_zero]
    split_ifs <;> simp <;> omega

end Bounds

/-- A slice fails only for the step zero. Otherwise none of its sums leaves the range of words unnoticed,
every item that it reads is in the list, and its walk comes to the stop; what it takes are the items from
the start on as far as they come before the stop, with both bounds and all places in unbounded integers. -/
theorem bidirectional_exact (items : List α) (size : items.length < 2 ^ 63) (bounds : SliceBounds) :
    (∀ fault, bidirectional items bounds = .error fault ↔
      bounds.step = some 0 ∧ fault = .slice .zeroStep) ∧
    bidirectional? items bounds = some (bidirectional items bounds) ∧
    (bounds.step ≠ some 0 → ∃ selected, bidirectional items bounds = .ok selected ∧
      let step := (bounds.step.getD 1).toInt
      Selects items (first bounds items.length step) (last bounds items.length step) step selected) := by
  by_cases still : bounds.step = some 0
  · simp [bidirectional?, bidirectional, still, eq_comm]
  have walks : bounds.step.getD 1 ≠ 0 := by
    cases h : bounds.step <;> simp_all
  have plain := bidirectional_eq_walk items walks
  unfold bidirectional?
  generalize bounds.step.getD 1 = step at walks plain ⊢
  -- the words that the walk starts and stops at are the bounds in unbounded integers
  have words : (Int64.ofNat items.length).toInt = items.length := Int64.toInt_ofNat_of_lt size
  have positive : 0 ≤ (Int64.ofNat items.length).toInt := by omega
  obtain ⟨starts, start_eq⟩ := startOf_exact bounds positive walks
  obtain ⟨stops, stop_eq⟩ := stopOf_exact bounds positive walks
  have inside := first_range bounds step.toInt positive
  have within := last_range bounds step.toInt positive
  rw [← start_eq, words] at inside
  rw [← stop_eq, words] at within
  rw [words] at start_eq stop_eq
  -- the distance between them is at most the room
  obtain ⟨walked, selects⟩ := @walk_exact _ items step _ size within.1 within.2 items.length
    (startOf bounds (.ofNat items.length) step) (by omega) (by omega)
  rw [start_eq, stop_eq] at selects
  have word : word? items.length = some (Int64.ofNat items.length) := if_pos size
  simp [plain, walks, still, word, starts, stops, walked, selects]

/-- From behind the end backwards, in a step that leaves the range of words. -/
theorem bidirectional_leap :
    bidirectional? [0, 1, 2, 3] ⟨some 9, none, some Int64.minValue⟩ = some (.ok [3]) ∧
      Selects [0, 1, 2, 3] 3 (-1) (-2 ^ 63) [3] := by
  have taken : bidirectional [0, 1, 2, 3] ⟨some 9, none, some Int64.minValue⟩ = .ok [3] := by
    decide
  obtain ⟨-, checked, selects⟩ :=
    bidirectional_exact [0, 1, 2, 3] (by decide) ⟨some 9, none, some Int64.minValue⟩
  obtain ⟨selected, same, places⟩ := selects (by decide)
  cases taken.symm.trans same
  exact ⟨checked.trans (congrArg some taken), places⟩

end JsonQuery.Slice

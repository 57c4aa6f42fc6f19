import JsonQuery.Proofs.Nesting
import JsonQuery.Proofs.Number.Exact
import JsonQuery.Proofs.Number.Nearest
import JsonQuery.Proofs.Order.Derived
import JsonQuery.Proofs.Slice

/-!
Three ways to slice. The function `slice`, the slice of an expression and the cut of a value move their
bounds into the sequence each in a way of its own; on bounds that do not count from the end and a step
forwards they take the same items, and none of them looks outside the sequence.
-/
namespace JsonQuery

namespace Double

theorem exists_toInt?_ofInt {n : Int} (finite : (ofInt n).isFinite = true) :
    ∃ m, (ofInt n).toInt? = some m ∧ (n < 0 → m < 0) ∧ (0 < n → 0 < m) := by
  obtain ⟨q, rounded⟩ := exists_eq_mul_left_of_dvd (one_dvd_roundUnits n.natAbs)
  have positive : n ≠ 0 → 0 < q := by
    intro nonzero
    refine Nat.pos_of_ne_zero fun zero => ?_
    have unit := roundUnits_of_mod (representable_mul_one (show 1 ≤ 2 ^ 53 by decide)).2
    have least := roundUnits_mono (Nat.mul_le_mul_right one (show 1 ≤ n.natAbs by omega))
    rw [unit, rounded, zero, Nat.one_mul, Nat.zero_mul] at least
    exact Nat.not_le_of_lt one_pos least
  have value : (ofInt n).toInt? = some (signed (n < 0) q) := by
    unfold ofInt ofRatio at finite ⊢
    split at finite
    · next below =>
      rw [dif_pos below]
      simp only [toInt?, rounded, Nat.mul_mod_left, Nat.mul_div_cancel _ one_pos, if_true]
    · cases finite
  refine ⟨_, value, ?_, ?_⟩ <;> intro sign <;> simp only [signed] <;> split <;>
    simp only [decide_eq_true_eq] at * <;> omega

theorem toInt64_of_toInt? {d : Double} {m : Int} (h : d.toInt? = some m) :
    d.toInt64.toInt = max (-2 ^ 63) (min m (2 ^ 63 - 1)) := by
  obtain ⟨negative, representable, rfl, sign⟩ := exists_of_toInt? h
  unfold toInt64
  dsimp only
  rw [Nat.mul_div_cancel _ one_pos, sign]
  split
  · rw [Int64.toInt_minValue]
    omega
  · split
    · rw [Int64.toInt_maxValue]
      omega
    · rw [Int64.toInt_ofInt_of_le] <;> omega

end Double

/-- Whether a value reads as an integer: its number is the finite double nearest to it. -/
def Value.ReadsAs (v : Value) (n : Int) : Prop :=
  v.coerce? = some (.ofInt n) ∧ (Double.ofInt n).isFinite = true

theorem Value.readsAs_ofInt {n : Int} (h : Number.IsWord n) : (Value.number (.ofInt n)).ReadsAs n := by
  refine ⟨?_, Number.isFinite_ofInt h⟩
  unfold coerce? Number.ofInt
  dsimp only
  split
  · exact Number.toDouble?_toString n
  · rfl

theorem Function.exists_bound {v : Value} {n : Int} (h : v.ReadsAs n) :
    ∃ word, bound v = .ok word ∧ (n.natAbs ≤ 2 ^ 53 → word = .ofInt n) ∧
      (n < 0 → word.toInt < 0) ∧ (0 < n → 0 < word.toInt) := by
  obtain ⟨reads, finite⟩ := h
  obtain ⟨m, value, negative, positive⟩ := Double.exists_toInt?_ofInt finite
  have word := Double.toInt64_of_toInt? value
  refine ⟨(Double.ofInt n).toInt64, ?_, fun small => ?_, fun sign => ?_, fun sign => ?_⟩
  · rw [bound, reads, Option.filter_some, if_pos finite]
  · rw [Double.toInt?_ofInt small] at value
    obtain rfl := Option.some.inj value
    rw [← Int64.toInt_inj, word, Int64.toInt_ofInt_of_le] <;> omega
  · have := negative sign
    omega
  · have := positive sign
    omega

namespace Slice

variable {α : Type} {items : List α}

theorem selects_unique {start stop step : Int} {selected selected' : List α}
    (h : Selects items start stop step selected) (h' : Selects items start stop step selected') :
    selected = selected' := by
  refine List.ext_getElem? fun k => ?_
  by_cases before : Before step (start + k * step) stop
  · obtain ⟨i, -, place, item⟩ := (h k).1 before
    obtain ⟨i', -, place', item'⟩ := (h' k).1 before
    rw [item, item', Int.ofNat_inj.1 (place.symm.trans place')]
  · rw [(h k).2 before, (h' k).2 before]

section Cut

def range? (items : List α) (start stop : Nat) : Option (List α) :=
  if start ≤ stop ∧ stop ≤ items.length then some ((items.take stop).drop start) else none

/-- The cut of a sequence with the range that it takes checked. -/
def cut? (items : List α) (start stop : Nat) : Option (List α) :=
  let stop := min stop items.length
  range? items (min start stop) stop

theorem cut_exact (items : List α) (start stop : Nat) :
    cut? items start stop = some ((items.take stop).drop start) ∧
      Selects items start (min stop items.length) 1 ((items.take stop).drop start) := by
  constructor
  · have range : min start (min stop items.length) ≤ min stop items.length ∧
        min stop items.length ≤ items.length := by
      omega
    rw [cut?, range?, if_pos range, ← List.take_eq_take_min]
    rcases Nat.le_total start (min stop items.length) with inside | beyond
    · rw [Nat.min_eq_left inside]
    · rw [Nat.min_eq_right beyond, List.drop_of_length_le, List.drop_of_length_le] <;>
        simp only [List.length_take] <;> omega
  · intro k
    have places : Before 1 (start + k * 1) (min stop items.length) ↔
        start + k < stop ∧ start + k < items.length := by
      unfold Before
      omega
    rw [places, List.getElem?_drop, List.getElem?_take]
    constructor
    · rintro ⟨early, inside⟩
      exact ⟨start + k, inside, by push_cast; ring, if_pos early⟩
    · intro past
      split
      · next early => exact List.getElem?_eq_none (Nat.le_of_not_lt fun inside => past ⟨early, inside⟩)
      · rfl

end Cut

/-- `forward` with the length, the sums, the accesses and the room all checked. -/
def forward? (items : List α) (start stop step : Int64) : Option (Except Fault (List α)) :=
  if step ≤ 0 then some (.error (.slice (.stepNotPositive step.toInt)))
  else do
    let length ← word? items.length
    if start < 0 ∨ length ≤ start then return .ok []
    else return .ok (← walk? items.toArray step (within stop length) items.length start)

section Forward

variable {start stop step : Int64}

theorem toInt_min (a b : Int64) : (min a b).toInt = min a.toInt b.toInt := by
  change (if a ≤ b then a else b).toInt = _
  split <;> simp only [Int64.le_iff_toInt_le] at * <;> omega

theorem walk_of_past {place : Int64} (past : ¬ Before step.toInt place.toInt stop.toInt) (room : Nat) :
    walk items.toArray step (ahead step stop) room place = [] ∧
      walk? items.toArray step (ahead step stop) room place = some [] := by
  rw [← ahead_iff] at past
  cases room <;> simp [walk, walk?, past]

/-- Forwards, a walk is within both bounds as long as it is ahead of the lesser one. -/
theorem within_eq_ahead (forth : 0 < step.toInt) (length : Int64) :
    within stop length = ahead step (min stop length) := by
  funext place
  rw [Bool.eq_iff_iff, ahead_iff, toInt_min, Before, within, decide_eq_true_iff, Int64.lt_iff_toInt_lt,
    Int64.lt_iff_toInt_lt]
  omega

theorem not_nonpositive (forth : 0 < step.toInt) : ¬ step ≤ 0 := by
  rw [Int64.le_iff_toInt_le, Int64.toInt_zero]
  omega

theorem toInt_length (size : items.length < 2 ^ 63) : (Int64.ofNat items.length).toInt = items.length :=
  Int64.toInt_ofNat_of_lt size

theorem beyond_iff (size : items.length < 2 ^ 63) (first : 0 ≤ start.toInt) :
    (start < 0 ∨ Int64.ofNat items.length ≤ start) ↔ (items.length : Int) ≤ start.toInt := by
  rw [Int64.lt_iff_toInt_lt, Int64.le_iff_toInt_le, Int64.toInt_zero, toInt_length size]
  omega

theorem forward_of_negative (forth : 0 < step.toInt) (outside : start.toInt < 0 ∨ stop.toInt < 0) :
    forward items start stop step = .ok [] := by
  rw [forward, if_neg (not_nonpositive forth)]
  dsimp only
  split
  · rfl
  · next inside =>
    have first : ¬ start.toInt < 0 := fun early => inside (.inl (Int64.lt_iff_toInt_lt.2 early))
    have past : ¬ Before step.toInt start.toInt (min stop (Int64.ofNat items.length)).toInt := by
      rw [toInt_min]
      unfold Before
      omega
    rw [within_eq_ahead forth, (walk_of_past past _).1]

variable (size : items.length < 2 ^ 63) (forth : 0 < step.toInt) (first : 0 ≤ start.toInt)
  (last : 0 ≤ stop.toInt)
include size forth first last

theorem forward_exact : ∃ selected, forward items start stop step = .ok selected ∧
    forward? items start stop step = some (.ok selected) ∧
    Selects items start.toInt (min stop.toInt items.length) step.toInt selected := by
  have word : word? items.length = some (Int64.ofNat items.length) := if_pos size
  have bound := toInt_min stop (Int64.ofNat items.length)
  rw [toInt_length size] at bound
  simp only [forward, forward?, not_nonpositive forth, word, beyond_iff size first, within_eq_ahead forth, if_false,
    Option.bind_eq_bind, Option.bind_some]
  split
  · refine ⟨[], rfl, rfl, selects_nil ?_⟩
    unfold Before
    omega
  · obtain ⟨walked, selects⟩ := @walk_exact _ items step (min stop (Int64.ofNat items.length)) size (by omega)
      (by omega) items.length start (by omega) (by omega)
    rw [bound] at selects
    exact ⟨_, rfl, by rw [walked]; rfl, selects⟩

/-- On bounds that do not count from the end, the slice of an expression is that of the function. -/
theorem bidirectional_eq_forward :
    bidirectional items ⟨some start, some stop, some step⟩ = forward items start stop step ∧
      bidirectional? items ⟨some start, some stop, some step⟩ = forward? items start stop step := by
  have walks : step ≠ 0 := by
    rintro rfl
    exact absurd forth (by decide)
  have length := toInt_length size
  have low : 0 ≤ (Int64.ofNat items.length).toInt := by omega
  obtain ⟨starts, start_eq⟩ := clamp_exact low walks start
  obtain ⟨stops, stop_eq⟩ := clamp_exact low walks stop
  -- the stop is moved to the same place, the start only where the walk is past its stop
  have stop_min : clamp (.ofNat items.length) stop step = min stop (.ofNat items.length) := by
    rw [← Int64.toInt_inj, stop_eq, toInt_min, reach]
    omega
  have word : word? items.length = some (Int64.ofNat items.length) := if_pos size
  simp only [bidirectional, bidirectional?, forward, forward?, startOf?, stopOf?, Option.getD_some, walks,
    not_nonpositive forth, word, starts, stops, stop_min, beyond_iff size first, within_eq_ahead forth, if_false,
    Option.bind_eq_bind, Option.bind_some]
  split
  · next beyond =>
    have past : ¬ Before step.toInt (clamp (.ofNat items.length) start step).toInt
        (min stop (.ofNat items.length)).toInt := by
      rw [start_eq, toInt_min, reach, Before]
      omega
    rw [(walk_of_past past _).1, (walk_of_past past _).2]
    exact ⟨rfl, rfl⟩
  · next inside =>
    have same : clamp (.ofNat items.length) start step = start := by
      rw [← Int64.toInt_inj, start_eq, reach]
      omega
    rw [same]
    exact ⟨rfl, rfl⟩

end Forward

end Slice

namespace Evaluator

open Eval

variable {ev : Evaluator} {xs start stop step : Value} {items : List Value}

theorem call_slice (builtin : ev.registry.get? Builtin.slice.name = none)
    (sequence : xs.sequence? = some items) {first last stride : Int64}
    (starts : Function.bound start = .ok first) (stops : Function.bound stop = .ok last)
    (steps : Function.bound step = .ok stride) (root : Value) (run : Run) :
    ev.call Builtin.slice.name [xs, start, stop, step] root run =
      ((Slice.forward items first last stride).map .array, run) := by
  have admitted : Parameter.resolve Builtin.slice.name Builtin.slice.parameters [xs, start, stop, step] =
      .ok [.any xs, .any start, .any stop, .any step] :=
    rfl
  have sliced : Function.slice [.any xs, .any start, .any stop, .any step] =
      (Slice.forward items first last stride).map .array := by
    simp only [Function.slice, List.map_cons, List.map_nil, Slot.toValue, sequence, starts, stops, List.head?_cons]
    rw [steps, if_neg (show ¬ 1 < [step].length from Nat.lt_irrefl 1)]
    change (Slice.forward items first last stride >>= fun selected => .ok (Value.array selected)) = _
    cases Slice.forward items first last stride <;> rfl
  rw [call_eq_apply builtin admitted]
  exact congrArg (·, run) sliced

theorem execute_slice (sequence : xs.sequence? = some items) (bounds : SliceBounds) (root : Value) {run : Run}
    (room : run.depth < ev.maxDepth) : (ev.execute (.slice bounds) xs root run).1 =
      (Slice.bidirectional items bounds).map .array := by
  rw [execute_eq_nested, nested_of_room room]
  unfold step
  dsimp only
  rw [sequence]
  dsimp only
  cases Slice.bidirectional items bounds <;> rfl

theorem cut_sequence (sequence : xs.sequence? = some items) (first last : Nat) :
    xs.cut first last = .array ((items.take last).drop first) := by
  cases xs <;> simp_all [Value.cut, Value.sequence?]

/-- For bounds that do not count from the end and a step forwards, all of them integers that a double
holds, the function `slice`, the slice of an expression and, for the step one, the cut of a value take
the same items, and none of them looks outside the sequence. A bound before the first item leaves the
function nothing. -/
theorem slices_agree (builtin : ev.registry.get? Builtin.slice.name = none)
    (sequence : xs.sequence? = some items) (size : items.length < 2 ^ 63) {i j k : Int}
    (starts : start.ReadsAs i) (stops : stop.ReadsAs j) (steps : step.ReadsAs k) (forth : 1 ≤ k) (root : Value)
    (run : Run) :
    (0 ≤ i → 0 ≤ j → i ≤ 2 ^ 53 → j ≤ 2 ^ 53 → k ≤ 2 ^ 53 → ∃ selected,
      Slice.Selects items i (min j items.length) k selected ∧
      ev.call Builtin.slice.name [xs, start, stop, step] root run = (.ok (.array selected), run) ∧
      Slice.forward? items (.ofInt i) (.ofInt j) (.ofInt k) = some (.ok selected) ∧
      (run.depth < ev.maxDepth →
        (ev.execute (.slice ⟨some (.ofInt i), some (.ofInt j), some (.ofInt k)⟩) xs root run).1 =
          .ok (.array selected)) ∧
      Slice.bidirectional? items ⟨some (.ofInt i), some (.ofInt j), some (.ofInt k)⟩ = some (.ok selected) ∧
      (k = 1 → xs.cut i.toNat j.toNat = .array selected ∧
        Slice.cut? items i.toNat j.toNat = some selected)) ∧
    (i < 0 ∨ j < 0 → ev.call Builtin.slice.name [xs, start, stop, step] root run = (.ok (.array []), run)) := by
  obtain ⟨first, first_eq, exact_first, first_negative, -⟩ := Function.exists_bound starts
  obtain ⟨last, last_eq, exact_last, last_negative, -⟩ := Function.exists_bound stops
  obtain ⟨stride, stride_eq, exact_stride, -, stride_positive⟩ := Function.exists_bound steps
  have called := call_slice builtin sequence first_eq last_eq stride_eq root run
  constructor
  · intro low low' high high' high''
    obtain rfl := exact_first (by omega)
    obtain rfl := exact_last (by omega)
    obtain rfl := exact_stride (by omega)
    have word {n : Int} (low : 0 ≤ n) (high : n ≤ 2 ^ 53) : (Int64.ofInt n).toInt = n :=
      Int64.toInt_ofInt_of_le (by omega) (by omega)
    have i_eq := word low high
    have j_eq := word low' high'
    have k_eq := word (n := k) (by omega) high''
    obtain ⟨selected, taken, checked, selects⟩ :=
      @Slice.forward_exact _ items (.ofInt i) (.ofInt j) (.ofInt k) size (by omega) (by omega) (by omega)
    obtain ⟨same, same_checked⟩ :=
      @Slice.bidirectional_eq_forward _ items (.ofInt i) (.ofInt j) (.ofInt k) size (by omega) (by omega)
        (by omega)
    rw [i_eq, j_eq, k_eq] at selects
    refine ⟨selected, selects, ?_, checked, fun room => ?_, same_checked.trans checked, ?_⟩
    · rw [called, taken]
      rfl
    · rw [execute_slice sequence _ root room, same, taken]
      rfl
    · rintro rfl
      obtain ⟨inside, places⟩ := Slice.cut_exact items i.toNat j.toNat
      have cut : (items.take j.toNat).drop i.toNat = selected := by
        refine Slice.selects_unique places ?_
        rwa [Int.toNat_of_nonneg low, Int.toNat_of_nonneg low']
      rw [cut_sequence sequence, cut]
      exact ⟨rfl, inside.trans (congrArg some cut)⟩
  · intro outside
    rw [called, Slice.forward_of_negative (stride_positive (by omega)) (outside.imp first_negative last_negative)]
    rfl

def triple : List Value := [.null, .bool false, .bool true]

def callOnTriple (start stop : Int) : Except Fault Value :=
  (call {} Builtin.slice.name [.array triple, .number (.ofInt start), .number (.ofInt stop), .number (.ofInt 1)]
    .null (.seeded 0)).1

theorem slices_triple :
    callOnTriple 1 9 = .ok (.array (triple.drop 1)) ∧
    (execute {} (.slice ⟨some (.ofInt 1), some (.ofInt 9), some (.ofInt 1)⟩) (.array triple) .null (.seeded 0)).1 =
      .ok (.array (triple.drop 1)) ∧
    callOnTriple 1 (-9) = .ok (.array []) := by
  have builtin : Registry.get? .empty Builtin.slice.name = none := rfl
  have sequence : (Value.array triple).sequence? = some triple := rfl
  have reads {n : Int} (h : Number.IsWord n) := Value.readsAs_ofInt h
  have step := reads (n := 1) (by decide)
  obtain ⟨agree, -⟩ := @slices_agree {} _ _ _ _ _ builtin sequence (by decide) 1 9 1 (reads (by decide))
    (reads (by decide)) step (by decide) .null (.seeded 0)
  obtain ⟨selected, -, called, -, executed, -, cut⟩ :=
    agree (by decide) (by decide) (by decide) (by decide) (by decide)
  obtain rfl : triple.drop 1 = selected := Value.array.inj (cut rfl).1
  have before := (@slices_agree {} _ _ _ _ _ builtin sequence (by decide) 1 (-9) 1 (reads (by decide))
    (reads (by decide)) step (by decide) .null (.seeded 0)).2 (by decide)
  exact ⟨congrArg Prod.fst called, executed (by decide), congrArg Prod.fst before⟩

end Evaluator

end JsonQuery

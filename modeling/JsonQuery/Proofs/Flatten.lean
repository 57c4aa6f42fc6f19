import JsonQuery.Proofs.Projection

/-!
Flattening. A pass puts the elements of sequences in their places and so takes one level away, from
arrays and from sequences of the host alike. What no pass loses, adds or moves are the leaves: the values
that are no sequences, in the order in which they stand.
-/
namespace JsonQuery

namespace Value

section Fold

variable {α β : Type}

mutual

/-- What comes of a value when its sequences are unfolded all the way down: something of each value that
is no sequence, gathered by the sequences around it. -/
def fold (single : Value → α) (gather : List α → α) : Value → α
  | .array items => gather (foldItems single gather items)
  | .record ⟨_, _, _, some items⟩ => gather (foldItems single gather items)
  | v => single v

def foldItems (single : Value → α) (gather : List α → α) : List Value → List α
  | [] => []
  | item :: rest => item.fold single gather :: foldItems single gather rest

end

variable {single : Value → α} {gather : List α → α} {v : Value} {items : List Value}

theorem foldItems_eq_map (items : List Value) :
    foldItems single gather items = items.map (fold single gather) := by
  induction items with
  | nil => rfl
  | cons item rest ih => rw [foldItems, ih, List.map_cons]

theorem fold_of_sequence (sequence : v.sequence? = some items) :
    v.fold single gather = gather (items.map (fold single gather)) := by
  rw [← foldItems_eq_map]
  cases v with
  | array =>
    cases sequence
    rfl
  | record r =>
    obtain ⟨_, _, _, elements⟩ := r
    cases sequence
    rfl
  | _ => cases sequence

theorem fold_of_single (alone : v.sequence? = none) : v.fold single gather = single v := by
  cases v with
  | array => cases alone
  | record r =>
    obtain ⟨_, _, _, elements⟩ := r
    cases alone
    rfl
  | _ => rfl

variable {single' : Value → β} {gather' : List β → β} {f : α → β}

mutual

/-- What is made of the result may be made of the results inside, if it goes with the gathering. -/
theorem map_fold (leaf : ∀ v, f (single v) = single' v)
    (node : ∀ results, f (gather results) = gather' (results.map f)) :
    ∀ v : Value, f (v.fold single gather) = v.fold single' gather'
  | .null | .bool _ | .number _ | .string _ | .object _ | .reference .. | .record ⟨_, _, _, none⟩ => leaf _
  | .array items => (node _).trans (congrArg gather' (map_foldItems leaf node items))
  | .record ⟨_, _, _, some items⟩ => (node _).trans (congrArg gather' (map_foldItems leaf node items))

theorem map_foldItems (leaf : ∀ v, f (single v) = single' v)
    (node : ∀ results, f (gather results) = gather' (results.map f)) :
    ∀ items : List Value, (foldItems single gather items).map f = foldItems single' gather' items
  | [] => rfl
  | item :: rest => congrArg₂ List.cons (map_fold leaf node item) (map_foldItems leaf node rest)

end

end Fold

/-- The values that are left when all sequences are unfolded, in order. -/
def leaves : Value → List Value := fold (fun v => [v]) List.flatten

def sunk (leaf : Value × Nat) : Value × Nat := (leaf.1, leaf.2 + 1)

def raised (leaf : Value × Nat) : Value × Nat := (leaf.1, leaf.2 - 1)

/-- The leaves, each with how many sequences it stands in. -/
def levels : Value → List (Value × Nat) := fold (fun v => [(v, 0)]) fun inner => inner.flatten.map sunk

/-- How many sequences stand one within another, the value itself included. -/
def nesting : Value → Nat := fold (fun _ => 0) fun inner => inner.foldr max 0 + 1

def itemsNesting (items : List Value) : Nat := (items.map nesting).foldr max 0

def spread (v : Value) : Value :=
  match v.sequence? with
  | some items => .array (flatten items)
  | none => .null

variable {v : Value} {items : List Value} {n : Nat}

section Views

theorem leaves_of_sequence (sequence : v.sequence? = some items) : v.leaves = items.flatMap leaves :=
  fold_of_sequence sequence

theorem leaves_of_single (alone : v.sequence? = none) : v.leaves = [v] := fold_of_single alone

theorem levels_of_sequence (sequence : v.sequence? = some items) : v.levels = (items.flatMap levels).map sunk :=
  fold_of_sequence sequence

theorem levels_of_single (alone : v.sequence? = none) : v.levels = [(v, 0)] := fold_of_single alone

theorem nesting_of_sequence (sequence : v.sequence? = some items) : v.nesting = itemsNesting items + 1 :=
  fold_of_sequence sequence

theorem nesting_of_single (alone : v.sequence? = none) : v.nesting = 0 := fold_of_single alone

theorem leaves_array (items : List Value) : (array items).leaves = items.flatMap leaves := leaves_of_sequence rfl

theorem levels_array (items : List Value) : (array items).levels = (items.flatMap levels).map sunk :=
  levels_of_sequence rfl

theorem nesting_array (items : List Value) : (array items).nesting = itemsNesting items + 1 :=
  nesting_of_sequence rfl

theorem map_fst_levels (v : Value) : v.levels.map Prod.fst = v.leaves := by
  refine map_fold (fun _ => rfl) (fun inner => ?_) v
  rw [List.map_map, ← List.map_flatten]
  rfl

theorem nesting_eq_zero_iff : v.nesting = 0 ↔ v.sequence? = none := by
  refine ⟨fun flat => ?_, nesting_of_single⟩
  cases sequence : v.sequence? with
  | none => rfl
  | some items =>
    rw [nesting_of_sequence sequence] at flat
    cases flat

theorem itemsNesting_cons (item : Value) (rest : List Value) :
    itemsNesting (item :: rest) = max item.nesting (itemsNesting rest) :=
  rfl

theorem itemsNesting_append (xs ys : List Value) :
    itemsNesting (xs ++ ys) = max (itemsNesting xs) (itemsNesting ys) := by
  induction xs with
  | nil => exact (Nat.zero_max _).symm
  | cons x xs ih => rw [List.cons_append, itemsNesting_cons, ih, itemsNesting_cons, Nat.max_assoc]

theorem itemsNesting_eq_zero_iff : itemsNesting items = 0 ↔ ∀ v ∈ items, v.sequence? = none := by
  induction items with
  | nil => exact ⟨nofun, fun _ => rfl⟩
  | cons item rest ih =>
    rw [itemsNesting_cons, Nat.max_eq_zero_iff, nesting_eq_zero_iff, ih, List.forall_mem_cons]

end Views

section Pass

/-- What stands for an item after a pass has its leaves, each raised by a level if it stood in a
sequence. -/
theorem levels_spliced (item : Value) :
    (item.sequence?.getD [item]).flatMap levels = item.levels.map raised := by
  cases sequence : item.sequence? with
  | none =>
    rw [Option.getD_none, List.flatMap_singleton, levels_of_single sequence]
    rfl
  | some items =>
    rw [Option.getD_some, levels_of_sequence sequence, List.map_map]
    exact (List.map_id _).symm

theorem itemsNesting_spliced (item : Value) : itemsNesting (item.sequence?.getD [item]) = item.nesting - 1 := by
  cases sequence : item.sequence? with
  | none =>
    rw [Option.getD_none, itemsNesting_cons, nesting_of_single sequence]
    rfl
  | some items => rw [Option.getD_some, nesting_of_sequence sequence, Nat.add_sub_cancel]

theorem flatMap_levels_flatten (items : List Value) :
    (flatten items).flatMap levels = (items.flatMap levels).map raised := by
  rw [flatten, List.flatMap_assoc, List.map_flatMap]
  exact List.flatMap_congr fun item _ => levels_spliced item

theorem flatMap_leaves_eq (items : List Value) : items.flatMap leaves = (items.flatMap levels).map Prod.fst := by
  rw [List.map_flatMap]
  exact List.flatMap_congr fun item _ => (map_fst_levels item).symm

theorem flatMap_leaves_flatten (items : List Value) : (flatten items).flatMap leaves = items.flatMap leaves := by
  rw [flatMap_leaves_eq, flatMap_levels_flatten, List.map_map, flatMap_leaves_eq]
  rfl

theorem itemsNesting_flatten (items : List Value) : itemsNesting (flatten items) = itemsNesting items - 1 := by
  induction items with
  | nil => rfl
  | cons item rest ih =>
    rw [flatten, List.flatMap_cons, ← flatten, itemsNesting_append, itemsNesting_spliced, ih, itemsNesting_cons]
    omega

/-- In the array that a pass makes, the leaves that stood deeper have come up by one level. -/
theorem levels_array_flatten (items : List Value) : (array (flatten items)).levels =
    (array items).levels.map fun leaf => (leaf.1, max 1 (leaf.2 - 1)) := by
  rw [levels_array, levels_array, flatMap_levels_flatten, List.map_map, List.map_map]
  refine List.map_congr_left fun leaf _ => congrArg (Prod.mk leaf.1) ?_
  change leaf.2 - 1 + 1 = max 1 leaf.2
  omega

theorem nesting_array_flatten (items : List Value) :
    (array (flatten items)).nesting = max 1 ((array items).nesting - 1) := by
  rw [nesting_array, nesting_array, itemsNesting_flatten]
  omega

theorem flatten_of_singles (singles : ∀ v ∈ items, v.sequence? = none) : flatten items = items := by
  have alone : ∀ v ∈ items, v.sequence?.getD [v] = [v] := fun v there => by rw [singles v there, Option.getD_none]
  rw [flatten, List.flatMap_congr alone, List.flatMap_singleton']

theorem flatMap_leaves_of_singles (singles : ∀ v ∈ items, v.sequence? = none) : items.flatMap leaves = items := by
  rw [List.flatMap_congr fun v there => leaves_of_single (singles v there), List.flatMap_singleton']

theorem flatten_eq_self_iff : flatten items = items ↔ ∀ v ∈ items, v.sequence? = none := by
  refine ⟨fun same => itemsNesting_eq_zero_iff.1 ?_, flatten_of_singles⟩
  have level := itemsNesting_flatten items
  rw [same] at level
  omega

end Pass

section Passes

theorem flatMap_leaves_iterate (n : Nat) (items : List Value) :
    (flatten^[n] items).flatMap leaves = items.flatMap leaves := by
  induction n with
  | zero => rfl
  | succ n ih => rw [Function.iterate_succ_apply', flatMap_leaves_flatten, ih]

theorem itemsNesting_iterate (n : Nat) (items : List Value) :
    itemsNesting (flatten^[n] items) = itemsNesting items - n := by
  induction n with
  | zero => rfl
  | succ n ih => rw [Function.iterate_succ_apply', itemsNesting_flatten, ih, Nat.sub_sub]

/-- A list in which no level is left is its own leaves, and these are the leaves that there were at
first. -/
theorem iterate_eq_leaves (enough : itemsNesting items ≤ n) : flatten^[n] items = items.flatMap leaves := by
  have flat : itemsNesting (flatten^[n] items) = 0 := by
    rw [itemsNesting_iterate, Nat.sub_eq_zero_of_le enough]
  rw [← flatMap_leaves_iterate n items, flatMap_leaves_of_singles (itemsNesting_eq_zero_iff.1 flat)]

theorem iterate_eq_leaves_iff : flatten^[n] items = items.flatMap leaves ↔ itemsNesting items ≤ n := by
  refine ⟨fun same => ?_, iterate_eq_leaves⟩
  -- As many passes as there are levels end in the leaves too, so that no level is left in these.
  have flat : itemsNesting (items.flatMap leaves) = 0 := by
    rw [← iterate_eq_leaves le_rfl, itemsNesting_iterate, Nat.sub_self]
  rw [← same, itemsNesting_iterate] at flat
  exact Nat.le_of_sub_eq_zero flat

theorem iterate_spread_succ (sequence : v.sequence? = some items) (n : Nat) :
    spread^[n + 1] v = .array (flatten^[n + 1] items) := by
  induction n with
  | zero => rw [Function.iterate_one, spread, sequence, Function.iterate_one]
  | succ n ih =>
    rw [Function.iterate_succ_apply', ih, Function.iterate_succ_apply' flatten (n + 1)]
    rfl

theorem sequence?_iterate_spread (sequence : v.sequence? = some items) (n : Nat) :
    (spread^[n] v).sequence? = some (flatten^[n] items) := by
  cases n with
  | zero => exact sequence
  | succ n => rw [iterate_spread_succ sequence, sequence?]

end Passes

end Value

namespace Evaluator

open Eval Value

variable {ev : Evaluator}

theorem execute_flatten (body : Expr) (v root : Value) : ev.execute (.flatten body) v root =
    nested ev.maxDepth (ev.execute body v root >>= fun w => pure w.spread) := by
  rw [execute_eq_nested]
  refine congrArg (fun next => nested ev.maxDepth (ev.execute body v root >>= next)) (funext fun w => ?_)
  unfold spread
  cases w.sequence? <;> rfl

theorem outcome_flatten (body : Expr) (v root : Value) (run : Run) :
    (ev.execute (.flatten body) v root run).1 = (ev.execute body v root run.opened).1.map spread := by
  by_cases room : run.depth < ev.maxDepth
  · rw [execute_flatten, nested_of_room room]
    exact bind_pure_outcome spread (ev.execute body v root) run.opened
  · have inside : ¬ run.opened.depth < ev.maxDepth := fun left => room (Nat.lt_of_succ_lt left)
    rw [execute_of_full room, execute_of_full inside]
    rfl

theorem outcome_nest_flatten (n : Nat) (body : Expr) (v root : Value) (run : Run) :
    (ev.execute (body.nest .flatten n) v root run).1 =
      (ev.execute body v root (Run.opened^[n] run)).1.map spread^[n] := by
  -- The outermost node is entered first, so the other nodes start from the state inside it.
  induction n generalizing run with
  | zero => exact (congrFun Except.map_id _).symm
  | succ n ih =>
    rw [Expr.nest, outcome_flatten, ih, Function.iterate_succ_apply, Function.iterate_succ']
    cases (ev.execute body v root (Run.opened^[n] run.opened)).1 <;> rfl

/-- A pass keeps the leaves in order and brings each up by exactly one level, but for those that are at
the top, and the list as a whole has one level less, if it has more than one. A pass changes nothing just
when no item is a sequence. It takes as many passes to make the leaves as there are levels below the
outermost one, and more passes leave them alone. So many flatten nodes around an expression make them
too, from an array or a sequence of the host that the expression gives inside. -/
theorem flatten_removes_level (ev : Evaluator) (items : List Value) :
    (Value.array (flatten items)).leaves = (Value.array items).leaves ∧
    (Value.array (flatten items)).levels =
      ((Value.array items).levels.map fun leaf => (leaf.1, max 1 (leaf.2 - 1))) ∧
    (Value.array (flatten items)).nesting = max 1 ((Value.array items).nesting - 1) ∧
    (flatten items = items ↔ ∀ v ∈ items, v.sequence? = none) ∧
    (∀ n, flatten^[n] items = (Value.array items).leaves ↔ (Value.array items).nesting - 1 ≤ n) ∧
    ∀ n body v root w run, (Value.array items).nesting - 1 ≤ n →
      (ev.execute body v root (Run.opened^[n] run)).1 = .ok w → w.sequence? = some items →
      ∃ u, (ev.execute (body.nest .flatten n) v root run).1 = .ok u ∧
        u.sequence? = some (Value.array items).leaves ∧ (0 < n → u = .array (Value.array items).leaves) := by
  have below (n : Nat) : (Value.array items).nesting - 1 ≤ n ↔ itemsNesting items ≤ n := by
    rw [nesting_array, Nat.add_sub_cancel]
  rw [leaves_array, leaves_array]
  refine ⟨flatMap_leaves_flatten items, levels_array_flatten items, nesting_array_flatten items,
    flatten_eq_self_iff, fun n => iterate_eq_leaves_iff.trans (below n).symm, ?_⟩
  intro n body v root w run enough inside sequence
  have flat : flatten^[n] items = items.flatMap leaves := iterate_eq_leaves ((below n).1 enough)
  refine ⟨spread^[n] w, ?_, ?_, fun some => ?_⟩
  · rw [outcome_nest_flatten, inside]
    rfl
  · rw [sequence?_iterate_spread sequence, flat]
  · obtain ⟨m, rfl⟩ : ∃ m, n = m + 1 := ⟨n - 1, by omega⟩
    rw [iterate_spread_succ sequence, flat]

/-- Sequences of both kinds within one another, at several levels and some without elements. -/
def crates : List Value :=
  [.string "pear", .array [],
    .array [.bool true, .record ⟨.given 0, "Vec", [], some [.null, .array [.string "fig"]]⟩],
    .object [("box", .array [.null])]]

def pallet : Value := .record ⟨.given 1, "Vec", [], some crates⟩

theorem flatten_pallet : (Value.array crates).nesting - 1 ≤ 3 ∧
    (execute {} .current pallet .null (Run.opened^[3] (.seeded 0))).1 = .ok pallet ∧
    pallet.sequence? = some crates ∧
    (execute {} (Expr.current.nest .flatten 3) pallet .null (.seeded 0)).1 =
      .ok (.array [.string "pear", .bool true, .null, .string "fig", .object [("box", .array [.null])]]) := by
  have enough : (Value.array crates).nesting - 1 ≤ 3 := by decide
  have room : (Run.opened^[3] (.seeded 0)).depth < maxDepth {} := by decide
  have inside := congrArg Prod.fst (execute_current room pallet .null)
  obtain ⟨u, result, -, leaves⟩ :=
    (flatten_removes_level {} crates).2.2.2.2.2 3 .current pallet .null pallet (.seeded 0) enough inside rfl
  obtain rfl := leaves (by decide)
  exact ⟨enough, inside, rfl, result⟩

end Evaluator

end JsonQuery

import JsonQuery.Proofs.Projection

/-!
Shuffling. The loop goes from the last place down to the second, and exchanges each with a place drawn
from those up to it. Whatever is drawn, no exchange leaves the array, and after each the elements are
those that were there before.
-/
namespace JsonQuery

namespace Function

variable {items : List Value} {swaps : List (Nat × Nat)}

/-- Whether exchanges are drawn for the places from one down to the second, each with a place that is not
after its own. -/
inductive Drawn : Nat → List (Nat × Nat) → Prop where
  | done : Drawn 0 []
  | next {place other : Nat} {rest : List (Nat × Nat)} (within : other ≤ place + 1) (drawn : Drawn place rest) :
      Drawn (place + 1) ((place + 1, other) :: rest)

theorem drawn_drawSwaps (place : Nat) (g : Generator) : Drawn place (drawSwaps place g).1 := by
  induction place generalizing g with
  | zero => exact .done
  | succ place ih =>
    have below : (g.below (place + 2)).1 < place + 2 := Generator.below_lt (Nat.succ_pos _) g
    exact .next (Nat.le_of_lt_succ below) (ih _)

def swap? (a : Array Value) (i j : Nat) : Option (Array Value) :=
  if h : i < a.size ∧ j < a.size then some (a.swap i j h.1 h.2) else none

def exchange? (swaps : List (Nat × Nat)) (items : List Value) : Option (List Value) :=
  (swaps.foldlM (fun a (i, j) => swap? a i j) items.toArray).map Array.toList

theorem swap?_eq {a : Array Value} {i j : Nat} (hi : i < a.size) (hj : j < a.size) :
    swap? a i j = some (a.swapIfInBounds i j) := by
  rw [swap?, dif_pos ⟨hi, hj⟩, Array.swapIfInBounds_def, dif_pos hi, dif_pos hj]

theorem swapIfInBounds_perm {a : Array Value} {i j : Nat} (hi : i < a.size) (hj : j < a.size) :
    (a.swapIfInBounds i j).Perm a := by
  rw [Array.swapIfInBounds_def, dif_pos hi, dif_pos hj]
  exact Array.swap_perm hi hj

/-- The loop that is left when the place is reached, on any array that has the place. -/
theorem Drawn.foldl_swap {place : Nat} (drawn : Drawn place swaps) {a : Array Value}
    (reach : place ≤ a.size - 1) :
    swaps.foldlM (fun a (i, j) => swap? a i j) a = some (swaps.foldl (fun a (i, j) => a.swapIfInBounds i j) a) ∧
      (swaps.foldl (fun a (i, j) => a.swapIfInBounds i j) a).Perm a := by
  induction drawn generalizing a with
  | done => exact ⟨rfl, .refl a⟩
  | @next place other rest within drawn ih =>
    have here : place + 1 < a.size := by omega
    have there : other < a.size := by omega
    have step := swapIfInBounds_perm here there
    -- An exchange keeps the size, so the places that are left are inside as well.
    have reach : place ≤ (a.swapIfInBounds (place + 1) other).size - 1 := by
      rw [Array.size_swapIfInBounds]
      omega
    obtain ⟨inside, perm⟩ := ih reach
    rw [List.foldlM_cons, List.foldl_cons]
    dsimp only
    rw [swap?_eq here there]
    exact ⟨inside, perm.trans step⟩

theorem Drawn.exchange?_eq (drawn : Drawn (items.length - 1) swaps) :
    exchange? swaps items = some (exchange swaps items) := by
  rw [exchange?, (drawn.foldl_swap (a := items.toArray) le_rfl).1]
  rfl

theorem Drawn.exchange_perm (drawn : Drawn (items.length - 1) swaps) : (exchange swaps items).Perm items :=
  (drawn.foldl_swap (a := items.toArray) le_rfl).2.toList

end Function

namespace Evaluator

open JsonQuery.Function Eval

variable {ev : Evaluator} {v : Value} {items : List Value}

theorem call_shuffle (builtin : ev.registry.get? Builtin.shuffle.name = none)
    (sequence : v.sequence? = some items) (root : Value) (run : Run) :
    ev.call Builtin.shuffle.name [v] root run =
      (.ok (.array (exchange (drawSwaps (items.length - 1) run.generator).1 items)),
        { run with generator := (drawSwaps (items.length - 1) run.generator).2 }) := by
  rw [call_eq_apply builtin (Parameter.resolve_one rfl (Parameter.check_array sequence))]
  rfl

theorem execute_shuffle (builtin : ev.registry.get? Builtin.shuffle.name = none)
    (sequence : v.sequence? = some items) (root : Value) {run : Run} (room : run.depth + 1 < ev.maxDepth) :
    ∃ after, ev.execute (.call Builtin.shuffle.name [.current]) v root run =
      (.ok (.array (exchange (drawSwaps (items.length - 1) run.generator).1 items)), after) ∧
      after.depth = run.depth := by
  have left : run.opened.depth < ev.maxDepth := room
  have argument := mapM_one (f := (ev.execute · v root)) (execute_current left v root)
  rw [execute_call, nested_of_room (Nat.lt_of_succ_lt room), bind_of_ok _ argument, call_shuffle builtin sequence]
  exact ⟨_, rfl, rfl⟩

theorem execute_selectList (present : v.isNull = false) (es : List Expr) (root : Value) :
    ev.execute (.selectList es) v root =
      nested ev.maxDepth (es.mapM (ev.execute · v root) >>= fun results => pure (.array results)) := by
  have listed : step ev (fun e v => ev.execute e v root) root (.selectList es) v =
      (es.mapM (ev.execute · v root) >>= fun results => pure (.array results)) :=
    if_neg (by simp [present])
  rw [execute_eq_nested, listed]

theorem execute_beside_shuffle (builtin : ev.registry.get? Builtin.shuffle.name = none)
    (sequence : v.sequence? = some items) (root : Value) {run : Run} (room : run.depth + 2 < ev.maxDepth) :
    (ev.execute (.selectList [.call Builtin.shuffle.name [.current], .current]) v root run).1 =
      .ok (.array [.array (exchange (drawSwaps (items.length - 1) run.generator).1 items), v]) := by
  have present : v.isNull = false := by
    cases v with
    | null => cases sequence
    | _ => rfl
  have inner : run.opened.depth + 1 < ev.maxDepth := room
  obtain ⟨after, shuffled, depth⟩ := execute_shuffle builtin sequence root inner
  have left : after.depth < ev.maxDepth := depth ▸ Nat.lt_of_succ_lt room
  have results := mapM_cons_eq_ok_iff (f := (ev.execute · v root)).2
    ⟨_, _, after, shuffled, mapM_one (execute_current left v root), rfl⟩
  rw [execute_selectList present, nested_bind_of_ok _ (Nat.lt_of_add_right_lt room) results]
  rfl

/-- Whatever is drawn for the places from the last one down, as long as it is in range, the exchanges
stay inside the array and only bring its elements into another order. In every state the result of
`shuffle` comes from such exchanges, nothing but the generator goes on, and what has been shuffled is
found as it was. -/
theorem shuffle_permutes (builtin : ev.registry.get? Builtin.shuffle.name = none)
    (sequence : v.sequence? = some items) :
    (∀ swaps, Drawn (items.length - 1) swaps →
      exchange? swaps items = some (exchange swaps items) ∧ (exchange swaps items).Perm items) ∧
    ∀ root run, ∃ swaps generator, Drawn (items.length - 1) swaps ∧
      ev.call Builtin.shuffle.name [v] root run = (.ok (.array (exchange swaps items)), { run with generator }) ∧
      (run.depth + 2 < ev.maxDepth →
        (ev.execute (.selectList [.call Builtin.shuffle.name [.current], .current]) v root run).1 =
          .ok (.array [.array (exchange swaps items), v])) := by
  refine ⟨fun swaps drawn => ⟨drawn.exchange?_eq, drawn.exchange_perm⟩, fun root run => ?_⟩
  have drawn := drawn_drawSwaps (items.length - 1) run.generator
  exact ⟨_, _, drawn, call_shuffle builtin sequence root run, execute_beside_shuffle builtin sequence root⟩

def tickets : List Value := [.string "red", .string "blue", .string "red"]

def ticketBox : Value := .record ⟨.given 0, "Vec", [], some tickets⟩

theorem shuffle_ticketBox : ticketBox.sequence? = some tickets ∧
    exchange? [(2, 1), (1, 1)] tickets = some [.string "red", .string "red", .string "blue"] ∧
    ∃ swaps, (exchange swaps tickets).Perm tickets ∧
      (Evaluator.call {} Builtin.shuffle.name [ticketBox] .null (.seeded 7)).1 =
        .ok (.array (exchange swaps tickets)) ∧
      (Evaluator.execute {} (.selectList [.call Builtin.shuffle.name [.current], .current]) ticketBox .null
        (.seeded 7)).1 = .ok (.array [.array (exchange swaps tickets), ticketBox]) := by
  have sequence : ticketBox.sequence? = some tickets := rfl
  obtain ⟨permutes, results⟩ := @shuffle_permutes {} ticketBox tickets rfl sequence
  obtain ⟨swaps, generator, drawn, called, beside⟩ := results .null (.seeded 7)
  refine ⟨sequence, ?_, swaps, (permutes swaps drawn).2, congrArg Prod.fst called, beside (by decide)⟩
  exact (permutes [(2, 1), (1, 1)] (.next (by decide) (.next (by decide) .done))).1

end Evaluator

end JsonQuery

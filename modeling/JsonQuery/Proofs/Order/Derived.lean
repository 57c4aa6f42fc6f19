import JsonQuery.Evaluator
import JsonQuery.Proofs.Order.Key
import JsonQuery.Proofs.Simulation.Outcome
import JsonQuery.Proofs.Simulation.Slot

/-!
The keys that an expression derives from elements. All of them are derived if the expression gives every
element a key and all keys are of the kind of the first; otherwise the function fails at the first element
where this breaks, as that element has it.
-/
namespace JsonQuery

theorem eq_nil_or_singleton {α : Type} {xs : List α} (few : xs.length < 2) : xs = [] ∨ ∃ x, xs = [x] := by
  match xs, few with
  | [], _ => exact .inl rfl
  | [x], _ => exact .inr ⟨x, rfl⟩

namespace SortKey

theorem oneKind_append_cons {first : Option SortKey} {k : SortKey} {ks : List SortKey} :
    OneKind (first.toList ++ k :: ks) ↔
      (∀ f ∈ first, f.kind = k.kind) ∧ OneKind ((first.or (some k)).toList ++ ks) := by
  cases first with
  | none => simp
  | some f =>
    constructor
    · rintro ⟨kind, all⟩
      simp_all [OneKind]
    · rintro ⟨same, kind, all⟩
      refine ⟨kind, ?_⟩
      simp_all

theorem oneKind_of_few {keys : List SortKey} (few : keys.length < 2) : OneKind keys := by
  rcases eq_nil_or_singleton few with rfl | ⟨k, rfl⟩
  · exact ⟨.number, by simp⟩
  · exact ⟨k.kind, by simp⟩

end SortKey

namespace Function

open Eval

/-- Whether evaluation on elements in turn gives each of them the key in its place. -/
def Derives (evaluate : Value → Eval Value) (items : List Value) (keys : List SortKey) (run after : Run) :
    Prop :=
  ∃ results, items.mapM evaluate run = (.ok results, after) ∧ results.map Value.key? = keys.map some

def Gives (evaluate : Value → Eval Value) (items : List Value) (keys : List SortKey) (run : Run) : Prop :=
  ∃ after, Derives evaluate items keys run after

/-- How an element fails to get a key of the kind of the first key. -/
inductive Unfit (b : Builtin) (first : Option SortKey) : Except Fault Value → Fault → Prop
  | failure (fault : Fault) : Unfit b first (.error fault) fault
  | kind {v : Value} (number : v.kind ≠ .number) (text : v.kind ≠ .string) :
    Unfit b first (.ok v) (.type (.keyKind b.name v.kind))
  | value {n : Number} (noValue : n.toDouble? = none) :
    Unfit b first (.ok (.number n)) (.number (.noValue b.name (String.ofList n.display)))
  | mixed {v : Value} {k f : SortKey} (key : v.key? = some k) (before : first = some f)
    (other : f.kind ≠ k.kind) : Unfit b first (.ok v) (.type (.mixedKeys b.name f.kind))

/-- Whether the elements before a place have keys of one kind, and the element there breaks this. -/
def BreaksAt (b : Builtin) (evaluate : Value → Eval Value) (items : List Value) (run : Run) (place : Nat)
    (fault : Fault) : Prop :=
  ∃ keys between item, Derives evaluate (items.take place) keys run between ∧ SortKey.OneKind keys ∧
    items[place]? = some item ∧ Unfit b keys.head? (evaluate item between).1 fault

section Parts

variable {b : Builtin} {first : Option SortKey} {v : Value} {k : SortKey} {fault : Fault}
  {outcome : Except Fault Value}

def fittingKey (b : Builtin) (first : Option SortKey) (v : Value) : Except Fault SortKey :=
  sortKey b v >>= checkKind b first

theorem sortKey_of_key? (key : v.key? = some k) : sortKey b v = .ok k := by
  cases v with
  | number n =>
    obtain ⟨d, value, rfl⟩ := Option.map_eq_some_iff.1 key
    rw [sortKey, numericValue, value]
    rfl
  | string s =>
    cases key
    rfl
  | _ => cases key

theorem fittingKey_of_key? (key : v.key? = some k) : fittingKey b first v = checkKind b first k := by
  rw [fittingKey, sortKey_of_key? key]
  rfl

theorem checkKind_of_kind (kinds : ∀ f ∈ first, f.kind = k.kind) : checkKind b first k = .ok k := by
  cases first with
  | none => rfl
  | some f => rw [checkKind, if_pos (kinds f rfl)]

theorem Unfit.error (h : Unfit b first outcome fault) :
    outcome >>= fittingKey b first = .error fault := by
  cases h with
  | failure => rfl
  | @kind v number text =>
    cases v with
    | number => exact absurd rfl number
    | string => exact absurd rfl text
    | _ => rfl
  | @value n noValue =>
    change fittingKey b first (.number n) = _
    rw [fittingKey, sortKey, numericValue, noValue]
    rfl
  | mixed key before other =>
    rw [before]
    exact (fittingKey_of_key? key).trans (if_neg other)

/-- There is no other way of being unfit than those that make the function fail. -/
theorem unfit_or_key? (b : Builtin) (first : Option SortKey) (outcome : Except Fault Value) :
    (∃ fault, Unfit b first outcome fault) ∨
      ∃ v k, outcome = .ok v ∧ v.key? = some k ∧ ∀ f ∈ first, f.kind = k.kind := by
  cases outcome with
  | error fault => exact .inl ⟨fault, .failure fault⟩
  | ok v =>
    cases key : v.key? with
    | none =>
      cases v with
      | number n => exact .inl ⟨_, .value (Option.map_eq_none_iff.1 key)⟩
      | string => cases key
      | _ => exact .inl ⟨_, .kind nofun nofun⟩
    | some k =>
      by_cases kinds : ∀ f ∈ first, f.kind = k.kind
      · exact .inr ⟨v, k, rfl, key, kinds⟩
      · push Not at kinds
        obtain ⟨f, before, other⟩ := kinds
        exact .inl ⟨_, .mixed key before other⟩

end Parts

section Derives

variable {evaluate : Value → Eval Value} {item : Value} {rest : List Value} {keys : List SortKey}
  {run after : Run}

theorem derives_nil : Derives evaluate [] keys run after ↔ keys = [] ∧ after = run := by
  constructor
  · rintro ⟨results, evaluated, each⟩
    cases evaluated
    exact ⟨by simpa using each, rfl⟩
  · rintro ⟨rfl, rfl⟩
    exact ⟨[], rfl, rfl⟩

theorem derives_cons : Derives evaluate (item :: rest) keys run after ↔
    ∃ v between k ks, evaluate item run = (.ok v, between) ∧ v.key? = some k ∧ keys = k :: ks ∧
      Derives evaluate rest ks between after := by
  constructor
  · rintro ⟨results, evaluated, each⟩
    obtain ⟨v, vs, between, here, there, rfl⟩ := mapM_cons_eq_ok_iff.1 evaluated
    cases keys with
    | nil => cases each
    | cons k ks =>
      obtain ⟨key, each⟩ := List.cons.inj each
      exact ⟨v, between, k, ks, here, key, rfl, vs, there, each⟩
  · rintro ⟨v, between, k, ks, here, key, rfl, vs, there, each⟩
    exact ⟨v :: vs, mapM_cons_eq_ok_iff.2 ⟨v, vs, between, here, there, rfl⟩,
      by rw [List.map_cons, List.map_cons, key, each]⟩

theorem Derives.length_eq {items : List Value} (h : Derives evaluate items keys run after) :
    keys.length = items.length := by
  induction items generalizing keys run with
  | nil => simp [(derives_nil.1 h).1]
  | cons item rest ih =>
    obtain ⟨_, _, _, _, _, _, rfl, more⟩ := derives_cons.1 h
    simp [ih more]

theorem Gives.length_eq {items : List Value} (h : Gives evaluate items keys run) :
    keys.length = items.length := by
  obtain ⟨after, derives⟩ := h
  exact derives.length_eq

theorem Gives.unique {items : List Value} {keys' : List SortKey} (h : Gives evaluate items keys run)
    (h' : Gives evaluate items keys' run) : keys = keys' := by
  obtain ⟨after, results, evaluated, each⟩ := h
  obtain ⟨after', results', evaluated', each'⟩ := h'
  cases evaluated.symm.trans evaluated'
  exact List.map_injective_iff.2 (Option.some_injective _) (each.symm.trans each')

theorem gives_iff {items : List Value} : Gives evaluate items keys run ↔
    (items.mapM evaluate run).1.toOption.map (List.map Value.key?) = some (keys.map some) := by
  constructor
  · rintro ⟨after, results, evaluated, each⟩
    rw [evaluated]
    exact congrArg some each
  · intro h
    obtain ⟨results, succeeds, each⟩ := Option.map_eq_some_iff.1 h
    rcases evaluated : items.mapM evaluate run with ⟨_ | values, after⟩ <;> rw [evaluated] at succeeds <;>
      cases succeeds
    exact ⟨after, results, evaluated, each⟩

end Derives

section Keys

variable {b : Builtin} {evaluate : Evaluate} {body : Expr} {first : Option SortKey} {items : List Value}
  {keys : List SortKey} {run after between : Run} {item : Value} {fault : Fault}

theorem keysBy_cons (rest : List Value) : keysBy b evaluate body first (item :: rest) = do
    let v ← evaluate body item
    let key ← Eval.ofExcept (fittingKey b first v)
    let more ← keysBy b evaluate body (first.or (some key)) rest
    return key :: more := rfl

theorem keysBy_cons_of_key {v : Value} {k : SortKey} (here : evaluate body item run = (.ok v, between))
    (key : v.key? = some k) (fits : ∀ f ∈ first, f.kind = k.kind) (rest : List Value) :
    keysBy b evaluate body first (item :: rest) run =
      (do return k :: (← keysBy b evaluate body (first.or (some k)) rest) : Eval (List SortKey)) between := by
  have fitting : Eval.ofExcept (fittingKey b first v) between = (.ok k, between) := by
    rw [fittingKey_of_key? key, checkKind_of_kind fits]
    rfl
  rw [keysBy_cons, bind_of_ok _ here, bind_of_ok _ fitting]

theorem keysBy_cons_of_unfit (unfit : Unfit b first (evaluate body item run).1 fault) (rest : List Value) :
    (keysBy b evaluate body first (item :: rest) run).1 = .error fault := by
  have failed := unfit.error
  rcases here : evaluate body item run with ⟨_ | v, after⟩ <;> rw [here] at failed
  · cases failed
    rw [keysBy_cons, bind_of_error _ here]
  · have fitting : Eval.ofExcept (fittingKey b first v) after = (.error fault, after) :=
      congrArg (·, after) failed
    rw [keysBy_cons, bind_of_ok _ here, bind_of_error _ fitting]

theorem keysBy_of_derives (h : Derives (evaluate body) items keys run after)
    (kinds : SortKey.OneKind (first.toList ++ keys)) :
    keysBy b evaluate body first items run = (.ok keys, after) := by
  induction items generalizing first keys run with
  | nil =>
    obtain ⟨rfl, rfl⟩ := derives_nil.1 h
    rfl
  | cons item rest ih =>
    obtain ⟨v, between, k, ks, here, key, rfl, more⟩ := derives_cons.1 h
    obtain ⟨fits, kinds⟩ := SortKey.oneKind_append_cons.1 kinds
    rw [keysBy_cons_of_key here key fits, bind_of_ok _ (ih more kinds)]
    rfl

theorem keysBy_of_unfit {place : Nat} (derived : Derives (evaluate body) (items.take place) keys run between)
    (kinds : SortKey.OneKind (first.toList ++ keys)) (there : items[place]? = some item)
    (unfit : Unfit b (first.or keys.head?) (evaluate body item between).1 fault) :
    (keysBy b evaluate body first items run).1 = .error fault := by
  induction place generalizing items first keys run with
  | zero =>
    obtain ⟨rfl, rfl⟩ := derives_nil.1 derived
    rw [List.head?_nil, Option.or_none] at unfit
    cases items with
    | nil => cases there
    | cons x rest =>
      cases there
      exact keysBy_cons_of_unfit unfit rest
  | succ place ih =>
    cases items with
    | nil => cases there
    | cons x rest =>
      obtain ⟨v, after, k, ks, here, key, rfl, more⟩ := derives_cons.1 derived
      obtain ⟨fits, kinds⟩ := SortKey.oneKind_append_cons.1 kinds
      have start : (first.or (some k)).or ks.head? = first.or (k :: ks).head? := by cases first <;> simp
      have failed := ih more kinds there (start.symm ▸ unfit)
      rw [keysBy_cons_of_key here key fits]
      rcases later : keysBy b evaluate body (first.or (some k)) rest after with ⟨outcome, final⟩
      rw [later] at failed
      cases failed
      rw [bind_of_error _ later]

theorem derives_or_unfit (b : Builtin) (evaluate : Value → Eval Value) (first : Option SortKey)
    (items : List Value) (run : Run) :
    (∃ keys after, Derives evaluate items keys run after ∧ SortKey.OneKind (first.toList ++ keys)) ∨
    ∃ place keys between item fault, Derives evaluate (items.take place) keys run between ∧
      SortKey.OneKind (first.toList ++ keys) ∧ items[place]? = some item ∧
      Unfit b (first.or keys.head?) (evaluate item between).1 fault := by
  have single {first : Option SortKey} : SortKey.OneKind (first.toList ++ []) :=
    SortKey.oneKind_of_few (by cases first <;> simp)
  induction items generalizing first run with
  | nil =>
    exact .inl ⟨[], run, derives_nil.2 ⟨rfl, rfl⟩, single⟩
  | cons x rest ih =>
    rcases here : evaluate x run with ⟨outcome, after⟩
    rcases unfit_or_key? b first outcome with ⟨fault, unfit⟩ | ⟨v, k, rfl, key, fits⟩
    · refine .inr ⟨0, [], run, x, fault, derives_nil.2 ⟨rfl, rfl⟩, single, rfl, ?_⟩
      rwa [List.head?_nil, Option.or_none, here]
    · rcases ih (first.or (some k)) after with
        ⟨ks, final, derived, kinds⟩ | ⟨place, ks, between, item, fault, derived, kinds, there, unfit⟩
      · exact .inl ⟨k :: ks, final, derives_cons.2 ⟨v, after, k, ks, here, key, rfl, derived⟩,
          SortKey.oneKind_append_cons.2 ⟨fits, kinds⟩⟩
      · refine .inr ⟨place + 1, k :: ks, between, item, fault,
          derives_cons.2 ⟨v, after, k, ks, here, key, rfl, derived⟩,
          SortKey.oneKind_append_cons.2 ⟨fits, kinds⟩, there, ?_⟩
        cases first <;> simpa using unfit

end Keys

section ByKey

variable {b : Builtin} {evaluate : Evaluate} {body : Expr} {few : List Value → Value}
  {many : List Value → List SortKey → Except Fault Value} {items : List Value} {keys : List SortKey}
  {run after : Run} {identity : Identity}

theorem byKey_of_few (short : items.length < 2) (run : Run) :
    byKey b evaluate few many [.array items, .reference identity body] run = (.ok (few items), run) := by
  rw [byKey, if_pos short]
  rfl

theorem byKey_of_gives (long : 2 ≤ items.length) (h : Gives (evaluate body) items keys run)
    (kinds : SortKey.OneKind keys) :
    (byKey b evaluate few many [.array items, .reference identity body] run).1 = many items keys := by
  obtain ⟨after, derives⟩ := h
  have keyed : keysBy b evaluate body none items run = (.ok keys, after) := keysBy_of_derives derives kinds
  rw [byKey, if_neg (Nat.not_lt.2 long), bind_of_ok _ keyed]
  rfl

/-- Fewer than two elements get no keys, which is no matter if the function would leave them as they are. -/
theorem byKey_of_alike (alike : items.length < 2 → many items keys = .ok (few items))
    (h : 2 ≤ items.length → Gives (evaluate body) items keys run) (kinds : SortKey.OneKind keys) :
    (byKey b evaluate few many [.array items, .reference identity body] run).1 = many items keys := by
  rcases Nat.lt_or_ge items.length 2 with short | long
  · rw [byKey_of_few short, alike short]
  · exact byKey_of_gives long (h long) kinds

theorem byKey_of_breaks (long : 2 ≤ items.length) {place : Nat} {fault : Fault}
    (h : BreaksAt b (evaluate body) items run place fault) :
    (byKey b evaluate few many [.array items, .reference identity body] run).1 = .error fault := by
  obtain ⟨keys, between, item, derived, kinds, there, unfit⟩ := h
  have failed : (keysBy b evaluate body none items run).1 = .error fault :=
    keysBy_of_unfit derived kinds there unfit
  rw [byKey, if_neg (Nat.not_lt.2 long)]
  rcases stop : keysBy b evaluate body none items run with ⟨outcome, after⟩
  rw [stop] at failed
  cases failed
  rw [bind_of_error _ stop]

theorem gives_or_breaks (b : Builtin) (evaluate : Value → Eval Value) (items : List Value) (run : Run) :
    (∃ keys, Gives evaluate items keys run ∧ SortKey.OneKind keys) ∨
      ∃ place fault, BreaksAt b evaluate items run place fault := by
  rcases derives_or_unfit b evaluate none items run with
    ⟨keys, after, derives, kinds⟩ | ⟨place, keys, between, item, fault, breaks⟩
  · exact .inl ⟨keys, ⟨after, derives⟩, kinds⟩
  · exact .inr ⟨place, fault, keys, between, item, breaks⟩

/-- The function succeeds if and only if all elements get keys of one kind and it succeeds on these. -/
theorem byKey_eq_ok_iff (long : 2 ≤ items.length) {w : Value} :
    (byKey b evaluate few many [.array items, .reference identity body] run).1 = .ok w ↔
      ∃ keys, Gives (evaluate body) items keys run ∧ SortKey.OneKind keys ∧ many items keys = .ok w := by
  constructor
  · intro succeeds
    rcases gives_or_breaks b (evaluate body) items run with ⟨keys, gives, kinds⟩ | ⟨_, _, breaks⟩
    · rw [byKey_of_gives long gives kinds] at succeeds
      exact ⟨keys, gives, kinds, succeeds⟩
    · rw [byKey_of_breaks long breaks] at succeeds
      cases succeeds
  · rintro ⟨keys, gives, kinds, succeeds⟩
    rw [byKey_of_gives long gives kinds, succeeds]

theorem oneKind_of_ok {w : Value} (sized : keys.length = items.length)
    (h : 2 ≤ items.length → Gives (evaluate body) items keys run)
    (succeeds : (byKey b evaluate few many [.array items, .reference identity body] run).1 = .ok w) :
    SortKey.OneKind keys := by
  rcases Nat.lt_or_ge items.length 2 with short | long
  · exact SortKey.oneKind_of_few (sized ▸ short)
  · obtain ⟨keys', gives, kinds, -⟩ := (byKey_eq_ok_iff long).1 succeeds
    exact (h long).unique gives ▸ kinds

theorem byKey_eq_error_iff (long : 2 ≤ items.length) {fault : Fault} :
    (byKey b evaluate few many [.array items, .reference identity body] run).1 = .error fault ↔
      (∃ place, BreaksAt b (evaluate body) items run place fault) ∨
      ∃ keys, Gives (evaluate body) items keys run ∧ SortKey.OneKind keys ∧
        many items keys = .error fault := by
  constructor
  · intro fails
    rcases gives_or_breaks b (evaluate body) items run with
      ⟨keys, gives, kinds⟩ | ⟨place, other, breaks⟩
    · rw [byKey_of_gives long gives kinds] at fails
      exact .inr ⟨keys, gives, kinds, fails⟩
    · rw [byKey_of_breaks long breaks] at fails
      cases fails
      exact .inl ⟨place, breaks⟩
  · rintro (⟨place, breaks⟩ | ⟨keys, gives, kinds, fails⟩)
    · exact byKey_of_breaks long breaks
    · rw [byKey_of_gives long gives kinds, fails]

end ByKey

end Function

namespace Parameter

variable {function : String} {p q : Parameter} {v w : Value} {s t : Slot}

theorem resolve_one (fixed : p.variadic = false) (first : p.check function 0 v = .ok s) :
    resolve function [p] [v] = .ok [s] := by
  simp [resolve, isVariadic, fixed, checkAll, first, pure, Except.pure, Bind.bind, Except.bind]

theorem resolve_two (fixed : q.variadic = false) (first : p.check function 0 v = .ok s)
    (second : q.check function 1 w = .ok t) : resolve function [p, q] [v, w] = .ok [s, t] := by
  simp [resolve, isVariadic, fixed, checkAll, first, second, pure, Except.pure, Bind.bind, Except.bind]

theorem check_array {classes : List TypeClass} {items : List Value} {position : Nat}
    (sequence : v.sequence? = some items) :
    (of (.array :: classes)).check function position v = .ok (.array items) := by
  rw [check, of, List.findSome?_cons, TypeClass.admit?_array, sequence]
  rfl

theorem resolve_keyed {items : List Value} (sequence : v.sequence? = some items) (identity : Identity)
    (body : Expr) : resolve function [.of [.array], .of [.reference]] [v, .reference identity body] =
      .ok [.array items, .reference identity body] :=
  resolve_two rfl (check_array sequence) rfl

theorem resolve_object (members : List (String × Value)) :
    resolve function [.of [.object]] [.object members] = .ok [.object members] := resolve_one rfl rfl

theorem resolve_rest {classes : List TypeClass} {args : List Value} (some : args ≠ []) :
    resolve function [.rest classes] args = .ok (args.map .any) := by
  have variadic : isVariadic [rest classes] = true := rfl
  have enough : [rest classes].length ≤ args.length := List.length_pos_iff.2 some
  rw [resolve, if_pos variadic, if_pos enough]

end Parameter

namespace Evaluator

variable {ev : Evaluator} {b : Builtin}

theorem call_eq_apply (builtin : ev.registry.get? b.name = none) {args : List Value} {slots : List Slot}
    (admitted : Parameter.resolve b.name b.parameters args = .ok slots) (root : Value) :
    ev.call b.name args root = b.apply ev.sorter (fun e v => ev.execute e v root) slots := by
  unfold call callWithin
  rw [builtin, Builtin.ofName?_name]
  dsimp only
  rw [admitted]
  rfl

/-- What a function gives on arguments whatever the root, without reading or changing the state. -/
def Returns (ev : Evaluator) (b : Builtin) (args : List Value) (outcome : Except Fault Value) : Prop :=
  ∀ root run, ev.call b.name args root run = (outcome, run)

theorem Returns.unique {args : List Value} {outcome outcome' : Except Fault Value}
    (h : ev.Returns b args outcome) (h' : ev.Returns b args outcome') : outcome = outcome' :=
  congrArg Prod.fst ((h .null (.seeded 0)).symm.trans (h' .null (.seeded 0)))

theorem returns_plain (builtin : ev.registry.get? b.name = none) (plain : b.needsContext = false)
    {args : List Value} {slots : List Slot}
    (admitted : Parameter.resolve b.name b.parameters args = .ok slots) :
    ev.Returns b args (b.plain ev.sorter slots) := by
  intro root run
  rw [call_eq_apply builtin admitted, Builtin.apply_of_plain plain]
  rfl

theorem call_keyed_eq_apply (builtin : ev.registry.get? b.name = none)
    (keyed : b.parameters = [.of [.array], .of [.reference]]) {v : Value} {items : List Value}
    (sequence : v.sequence? = some items) (identity : Identity) (body : Expr) (root : Value) :
    ev.call b.name [v, .reference identity body] root =
      b.apply ev.sorter (fun e v => ev.execute e v root) [.array items, .reference identity body] :=
  call_eq_apply builtin (keyed ▸ Parameter.resolve_keyed sequence identity body) root

end Evaluator

end JsonQuery

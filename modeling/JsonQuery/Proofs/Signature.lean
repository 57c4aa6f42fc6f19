import JsonQuery.Proofs.Failure.Shape

/-!
How arguments are resolved. A value reaches the function in the first class of its parameter that it
belongs to, and nothing about it changes but that a sequence of the host becomes an array in a class of
arrays. Resolution fails at the number of arguments or at the first of them that belongs to no class of
its parameter.
-/
namespace JsonQuery

theorem map_of_mapM {α β : Type} {f : α → Option β} {g : β → α} (inverse : ∀ x y, f x = some y → g y = x)
    {xs : List α} {ys : List β} (h : xs.mapM f = some ys) : ys.map g = xs := by
  rw [mapM_eq_some_iff] at h
  induction xs generalizing ys with
  | nil => rw [List.map_eq_nil_iff.1 h.symm, List.map_nil]
  | cons x rest ih =>
    obtain ⟨y, more, rfl, here, there⟩ := List.map_eq_cons_iff.1 h.symm
    rw [List.map_cons, inverse x y here.symm, ih there.symm]

theorem zip_eq_nil {α β : Type} {xs : List α} {ys : List β}
    (unpaired : ∀ x rest y more, xs = x :: rest → ys = y :: more → False) : xs.zip ys = [] := by
  cases xs with
  | nil => rfl
  | cons x rest =>
    cases ys with
    | nil => rfl
    | cons y more => exact (unpaired x rest y more rfl rfl).elim

namespace Value

variable {v : Value}

theorem number?_eq_some {n : Number} (h : v.number? = some n) : .number n = v := by
  cases v <;> cases h
  rfl

theorem string?_eq_some {s : String} (h : v.string? = some s) : .string s = v := by
  cases v <;> cases h
  rfl

theorem kind_eq_number_iff : v.kind = .number ↔ ∃ n, v.number? = some n := by
  cases v <;> simp [kind, number?]

theorem kind_eq_string_iff : v.kind = .string ↔ ∃ s, v.string? = some s := by
  cases v <;> simp [kind, string?]

end Value

namespace TypeClass

def Admits : TypeClass → Value → Prop
  | .any, _ => True
  | .number, v => v.kind = .number
  | .string, v => v.kind = .string
  | .object, v => v.kind = .object
  | .reference, v => v.kind = .reference
  | .array, v => ∃ items, v.sequence? = some items
  | .numbers, v => ∃ items, v.sequence? = some items ∧ ∀ item ∈ items, item.kind = .number
  | .strings, v => ∃ items, v.sequence? = some items ∧ ∀ item ∈ items, item.kind = .string

/-- What a value is in a class: a sequence of the host is an array in a class of arrays. -/
def settled : TypeClass → Value → Value
  | .array, .record ⟨_, _, _, some items⟩ => .array items
  | .numbers, .record ⟨_, _, _, some items⟩ => .array items
  | .strings, .record ⟨_, _, _, some items⟩ => .array items
  | _, v => v

variable {c : TypeClass} {v : Value} {s : Slot}

theorem settled_of_sequence {items : List Value} (lists : c = .array ∨ c = .numbers ∨ c = .strings)
    (sequence : v.sequence? = some items) : c.settled v = .array items := by
  cases v with
  | array =>
    cases sequence
    rcases lists with rfl | rfl | rfl <;> rfl
  | record r =>
    obtain ⟨_, _, _, elements⟩ := r
    cases sequence
    rcases lists with rfl | rfl | rfl <;> rfl
  | _ => cases sequence

theorem admits_iff : c.Admits v ↔ ∃ s, c.admit? v = some s := by
  cases c with
  | any => exact iff_of_true trivial ⟨_, rfl⟩
  | number | string | object | reference => cases v <;> simp [Admits, Value.kind, admit?]
  | array =>
    rw [admit?_array]
    simp [Admits]
  | numbers =>
    simp only [Admits, Value.kind_eq_number_iff, ← exists_mapM_iff]
    simp [admit?_numbers, Option.bind_eq_some_iff]
  | strings =>
    simp only [Admits, Value.kind_eq_string_iff, ← exists_mapM_iff]
    simp [admit?_strings, Option.bind_eq_some_iff]

theorem toValue_of_admit? (h : c.admit? v = some s) : s.toValue = c.settled v := by
  cases c with
  | any =>
    cases h
    rfl
  | number | string | object | reference =>
    cases v <;> cases h
    rfl
  | array =>
    rw [admit?_array] at h
    obtain ⟨items, sequence, rfl⟩ := Option.map_eq_some_iff.1 h
    exact (settled_of_sequence (.inl rfl) sequence).symm
  | numbers =>
    simp only [admit?_numbers, Option.bind_eq_some_iff] at h
    obtain ⟨items, sequence, ns, read, slot⟩ := h
    cases slot
    rw [settled_of_sequence (.inr (.inl rfl)) sequence, Slot.toValue,
      map_of_mapM (fun _ _ => Value.number?_eq_some) read]
  | strings =>
    simp only [admit?_strings, Option.bind_eq_some_iff] at h
    obtain ⟨items, sequence, ss, read, slot⟩ := h
    cases slot
    rw [settled_of_sequence (.inr (.inr rfl)) sequence, Slot.toValue,
      map_of_mapM (fun _ _ => Value.string?_eq_some) read]

end TypeClass

theorem Slot.eq_of_toValue {s t : Slot} (classes : s.typeClass = t.typeClass) (values : s.toValue = t.toValue) :
    s = t := by
  have numbers : Function.Injective (List.map Value.number) := List.map_injective_iff.2 fun _ _ => Value.number.inj
  have strings : Function.Injective (List.map Value.string) := List.map_injective_iff.2 fun _ _ => Value.string.inj
  cases s <;> cases t <;> simp_all [typeClass, toValue, numbers.eq_iff, strings.eq_iff]

theorem TypeClass.admit?_eq_some_iff {c : TypeClass} {v : Value} {s : Slot} :
    c.admit? v = some s ↔ c.Admits v ∧ s.typeClass = c ∧ s.toValue = c.settled v := by
  constructor
  · intro h
    exact ⟨admits_iff.2 ⟨s, h⟩, typeClass_of_admit? h, toValue_of_admit? h⟩
  · rintro ⟨admits, rfl, value⟩
    obtain ⟨t, h⟩ := admits_iff.1 admits
    rw [h, Slot.eq_of_toValue (typeClass_of_admit? h) ((toValue_of_admit? h).trans value.symm)]

namespace Parameter

variable {p : Parameter} {v : Value} {s : Slot} {function : String} {position : Nat} {fault : Fault}

def Accepts (p : Parameter) (v : Value) : Prop := ∃ c ∈ p.accepts, c.Admits v

/-- Whether a slot is that of a value in the first class of a parameter that admits it. -/
def Settles (p : Parameter) (v : Value) (s : Slot) : Prop :=
  (∃ before after, p.accepts = before ++ s.typeClass :: after ∧ ∀ c ∈ before, ¬ c.Admits v) ∧
    s.typeClass.Admits v ∧ s.toValue = s.typeClass.settled v

theorem admit?_eq_none_iff {c : TypeClass} : c.admit? v = none ↔ ¬ c.Admits v := by
  rw [TypeClass.admits_iff, ← Option.ne_none_iff_exists', Ne, not_not]

theorem findSome?_eq_some_iff : p.accepts.findSome? (·.admit? v) = some s ↔ p.Settles v s := by
  rw [List.findSome?_eq_some_iff]
  simp only [admit?_eq_none_iff, TypeClass.admit?_eq_some_iff, Settles]
  constructor
  · rintro ⟨before, _, after, order, ⟨admits, rfl, value⟩, first⟩
    exact ⟨⟨before, after, order, first⟩, admits, value⟩
  · rintro ⟨⟨before, after, order, first⟩, admits, value⟩
    exact ⟨before, _, after, order, ⟨admits, rfl, value⟩, first⟩

theorem findSome?_eq_none_iff : p.accepts.findSome? (·.admit? v) = none ↔ ¬ p.Accepts v := by
  rw [List.findSome?_eq_none_iff, Accepts]
  simp only [admit?_eq_none_iff, not_exists, not_and]

theorem check_eq_ok_iff : p.check function position v = .ok s ↔ p.Settles v s := by
  rw [← findSome?_eq_some_iff, check]
  cases p.accepts.findSome? (·.admit? v) <;> simp

theorem check_eq_error_iff : p.check function position v = .error fault ↔
    ¬ p.Accepts v ∧ fault = .mismatch function position v.display p.accepts := by
  rw [← findSome?_eq_none_iff, check]
  cases p.accepts.findSome? (·.admit? v) <;> simp [eq_comm]

theorem accepts_of_settles (h : p.Settles v s) : p.Accepts v := by
  obtain ⟨⟨before, after, order, -⟩, admits, -⟩ := h
  exact ⟨s.typeClass, order ▸ List.mem_append_right before (.head after), admits⟩

variable {ps : List Parameter} {args : List Value} {slots : List Slot}

def SettleAll (pairs : List (Parameter × Value)) (slots : List Slot) : Prop :=
  List.Forall₂ (fun pair s => pair.1.Settles pair.2 s) pairs slots

/-- Whether a fault is that of the first value that no class of its parameter admits. -/
def MisfitsFirst (function : String) (position : Nat) (pairs : List (Parameter × Value)) (fault : Fault) : Prop :=
  ∃ before p v after, pairs = before ++ (p, v) :: after ∧ (∀ pair ∈ before, pair.1.Accepts pair.2) ∧
    ¬ p.Accepts v ∧ fault = .mismatch function (position + before.length) v.display p.accepts

variable {pairs : List (Parameter × Value)}

theorem misfitsFirst_cons : MisfitsFirst function position ((p, v) :: pairs) fault ↔
    (¬ p.Accepts v ∧ fault = .mismatch function position v.display p.accepts) ∨
      p.Accepts v ∧ MisfitsFirst function (position + 1) pairs fault := by
  have shift (before : List (Parameter × Value)) :
      position + (before.length + 1) = position + 1 + before.length := by omega
  constructor
  · rintro ⟨_ | ⟨pair, before⟩, q, w, after, order, first, misfit, rfl⟩
    · cases order
      exact .inl ⟨misfit, rfl⟩
    · cases order
      rw [List.forall_mem_cons] at first
      exact .inr ⟨first.1, before, q, w, after, rfl, first.2, misfit, by rw [List.length_cons, shift]⟩
  · rintro (⟨misfit, rfl⟩ | ⟨accepted, before, q, w, after, rfl, first, misfit, rfl⟩)
    · exact ⟨[], p, v, pairs, rfl, nofun, misfit, rfl⟩
    · refine ⟨(p, v) :: before, q, w, after, rfl, List.forall_mem_cons.2 ⟨accepted, first⟩, misfit, ?_⟩
      rw [List.length_cons, shift]

theorem checkAll_eq_ok_iff : checkAll function position ps args = .ok slots ↔ SettleAll (ps.zip args) slots := by
  fun_induction checkAll function position ps args generalizing slots with
  | case1 position p ps v vs ih =>
    constructor
    · intro h
      obtain ⟨s, rest, first, more, rfl⟩ := Value.bind_eq_ok List.cons h
      exact .cons (check_eq_ok_iff.1 first) (ih.1 more)
    · rintro (_ | ⟨first, more⟩)
      rw [check_eq_ok_iff.2 first, ih.2 more]
      rfl
  | case2 ps _ vs other =>
    rw [zip_eq_nil other, SettleAll, List.forall₂_nil_left_iff]
    exact ⟨fun h => by cases h; rfl, fun h => by rw [h]; rfl⟩

theorem checkAll_eq_error_iff : checkAll function position ps args = .error fault ↔
    MisfitsFirst function position (ps.zip args) fault := by
  fun_induction checkAll function position ps args with
  | case1 position p ps v vs ih =>
    rw [List.zip_cons_cons, misfitsFirst_cons, ← ih, ← check_eq_error_iff]
    cases first : p.check function position v with
    | error f =>
      have misfit := (check_eq_error_iff.1 first).1
      simp [misfit, bind, Except.bind]
    | ok s =>
      have accepted := accepts_of_settles (check_eq_ok_iff.1 first)
      cases checkAll function (position + 1) ps vs <;> simp [accepted, bind, Except.bind, pure, Except.pure]
  | case2 ps _ vs other =>
    rw [zip_eq_nil other, MisfitsFirst]
    simp [pure, Except.pure]

theorem exists_checkAll_iff : (∃ slots, checkAll function position ps args = .ok slots) ↔
    ∀ pair ∈ ps.zip args, pair.1.Accepts pair.2 := by
  constructor
  · rintro ⟨slots, checked⟩ pair mem
    obtain ⟨s, -, settles⟩ := exists_rel_of_mem (checkAll_eq_ok_iff.1 checked) mem
    exact accepts_of_settles settles
  · intro accepted
    cases outcome : checkAll function position ps args with
    | ok slots => exact ⟨slots, rfl⟩
    | error fault =>
      obtain ⟨before, p, v, after, order, -, misfit, -⟩ := checkAll_eq_error_iff.1 outcome
      exact absurd (accepted (p, v) (order ▸ List.mem_append_right before (.head after))) misfit

theorem isVariadic_iff : isVariadic ps = true ↔ ∃ init p, ps = init ++ [p] ∧ p.variadic = true := by
  rw [isVariadic, Option.any_eq_true]
  simp only [List.getLast?_eq_some_iff]
  constructor
  · rintro ⟨p, ⟨init, rfl⟩, variadic⟩
    exact ⟨init, p, rfl, variadic⟩
  · rintro ⟨init, p, rfl, variadic⟩
    exact ⟨p, ⟨init, rfl⟩, variadic⟩

/-- A function whose last parameter is variadic gets its arguments unchecked if there are enough of them.
Any other gets them if there are as many as parameters and each is admitted by a class of its own: it has
the first such class and is what it was, but for a sequence of the host in a class of arrays. If there
are as many, it fails at the first argument that no class admits. -/
theorem resolve_exact (function : String) (ps : List Parameter) (args : List Value) :
    (∀ init p, ps = init ++ [p] → p.variadic = true →
      (∀ slots, resolve function ps args = .ok slots ↔ ps.length ≤ args.length ∧ slots = args.map .any) ∧
      ∀ fault, resolve function ps args = .error fault ↔
        args.length < ps.length ∧ fault = .arity function ps.length args.length true) ∧
    ((∀ init p, ps = init ++ [p] → p.variadic = false) →
      ((∃ slots, resolve function ps args = .ok slots) ↔ List.Forall₂ Accepts ps args) ∧
      (∀ slots, resolve function ps args = .ok slots ↔
        args.length = ps.length ∧ SettleAll (ps.zip args) slots) ∧
      ∀ fault, resolve function ps args = .error fault ↔
        args.length ≠ ps.length ∧ fault = .arity function ps.length args.length false ∨
          args.length = ps.length ∧ MisfitsFirst function 0 (ps.zip args) fault) := by
  constructor
  · intro init p last variadic
    rw [resolve, if_pos (isVariadic_iff.2 ⟨init, p, last, variadic⟩)]
    by_cases enough : ps.length ≤ args.length
    · simp [enough, eq_comm]
    · simp [enough, Nat.lt_of_not_le enough, eq_comm]
  · intro fixed
    have plain : ¬ isVariadic ps = true := by
      rw [isVariadic_iff]
      rintro ⟨init, p, last, variadic⟩
      cases (fixed init p last).symm.trans variadic
    rw [resolve, if_neg plain]
    by_cases count : args.length = ps.length
    · rw [if_pos count, exists_checkAll_iff, List.forall₂_iff_zip]
      simp only [checkAll_eq_ok_iff, checkAll_eq_error_iff]
      simp [count]
    · have uneven : ¬ List.Forall₂ Accepts ps args := fun h => count h.length_eq.symm
      rw [if_neg count]
      simp [count, uneven, eq_comm]

/-- Two parameters, of whose classes the second of each admits more than the first. -/
def lenient : List Parameter := [.of [.numbers, .array], .of [.string, .any]]

def titles : Value := .record ⟨.given 0, "Vec", [], some [.string "a", .null]⟩

theorem resolve_titles : (∀ init p, lenient = init ++ [p] → p.variadic = false) ∧
    resolve "f" lenient [titles, titles] = .ok [.array [.string "a", .null], .any titles] ∧
    resolve "f" lenient [titles, .null, titles] = .error (.arity "f" 2 3 false) ∧
    resolve "f" lenient [.null, titles] = .error (.mismatch "f" 0 "null" [.numbers, .array]) ∧
    resolve "f" [.rest [.object]] [titles] = .ok [.any titles] := by
  have fixed : ∀ init p, lenient = init ++ [p] → p.variadic = false := by
    intro init p last
    have same := congrArg List.getLast? last
    rw [List.getLast?_concat] at same
    cases same
    rfl
  have mixed : ¬ TypeClass.numbers.Admits titles := by
    rintro ⟨items, sequence, numbers⟩
    cases sequence
    cases numbers (.string "a") (.head _)
  have other : ¬ TypeClass.string.Admits titles := nofun
  have first : (of [.numbers, .array]).Settles titles (.array [.string "a", .null]) :=
    ⟨⟨[.numbers], [], rfl, by simpa using mixed⟩, ⟨_, rfl⟩, rfl⟩
  have second : (of [.string, .any]).Settles titles (.any titles) :=
    ⟨⟨[.string], [], rfl, by simpa using other⟩, trivial, rfl⟩
  have misfit : ¬ (of [.numbers, .array]).Accepts .null := by simp [Accepts, of, TypeClass.Admits, Value.sequence?]
  refine ⟨fixed, ?_, ?_, ?_, ?_⟩
  · exact (((resolve_exact "f" lenient [titles, titles]).2 fixed).2.1 _).2 ⟨rfl, .cons first (.cons second .nil)⟩
  · exact (((resolve_exact "f" lenient [titles, .null, titles]).2 fixed).2.2 _).2 (.inl ⟨by decide, rfl⟩)
  · exact (((resolve_exact "f" lenient [.null, titles]).2 fixed).2.2 _).2
      (.inr ⟨rfl, [], _, _, _, rfl, nofun, misfit, rfl⟩)
  · exact (((resolve_exact "f" [.rest [.object]] [titles]).1 [] _ rfl rfl).1 _).2 ⟨by decide, rfl⟩

end Parameter

end JsonQuery

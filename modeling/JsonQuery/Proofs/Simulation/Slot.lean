import JsonQuery.Proofs.Simulation.Correspondence
import JsonQuery.Proofs.Simulation.Sequence

/-!
Signatures under a correspondence: corresponding arguments are admitted by the same classes and reach
the function as corresponding slots.
-/
namespace JsonQuery

theorem rel_mapM {α β γ δ : Type} {R : α → β → Prop} {S : γ → δ → Prop} {f : α → Option γ}
    {g : β → Option δ} (each : ∀ a b, R a b → Option.Rel S (f a) (g b)) {xs : List α}
    {ys : List β} (h : List.Forall₂ R xs ys) :
    Option.Rel (List.Forall₂ S) (xs.mapM f) (ys.mapM g) := by
  induction h with
  | nil => exact .some .nil
  | @cons a b _ _ head _ ih =>
    rw [List.mapM_cons, List.mapM_cons]
    rcases rel_cases (each a b head) with ⟨ha, hb⟩ | ⟨c, d, ha, hb, first⟩ <;> rw [ha, hb]
    · exact .none
    · rcases rel_cases ih with ⟨hxs, hys⟩ | ⟨cs, ds, hxs, hys, rest⟩ <;> rw [hxs, hys]
      · exact .none
      · exact .some (.cons first rest)

theorem mapM_eq_some_iff {α β : Type} {f : α → Option β} {xs : List α} {ys : List β} :
    xs.mapM f = some ys ↔ xs.map f = ys.map some := by
  induction xs generalizing ys with
  | nil => cases ys <;> simp
  | cons x rest ih =>
    rw [List.mapM_cons, Option.bind_eq_bind, Option.bind_eq_some_iff]
    cases ys <;> simp [Option.bind_eq_some_iff, ih]

theorem mapM_eq_none_iff {α β : Type} {f : α → Option β} {xs : List α} :
    xs.mapM f = none ↔ ∃ x ∈ xs, f x = none := by
  induction xs with
  | nil => simp
  | cons x rest ih =>
    rw [List.mapM_cons, List.exists_mem_cons_iff, ← ih]
    cases f x <;> cases rest.mapM f <;> simp

theorem exists_mapM_iff {α β : Type} {f : α → Option β} {xs : List α} :
    (∃ ys, xs.mapM f = some ys) ↔ ∀ x ∈ xs, ∃ y, f x = some y := by
  rw [← Option.ne_none_iff_exists', Ne, mapM_eq_none_iff]
  simp [Option.ne_none_iff_exists']

namespace TypeClass

theorem admit?_number (v : Value) : number.admit? v = v.number?.map .number := by
  cases v <;> rfl

theorem admit?_string (v : Value) : string.admit? v = v.string?.map .string := by
  cases v <;> rfl

theorem admit?_object (v : Value) : object.admit? v = v.object?.map .object := by
  cases v <;> rfl

theorem admit?_array (v : Value) : array.admit? v = v.sequence?.map .array := by
  cases v <;> rfl

theorem admit?_numbers (v : Value) : numbers.admit? v =
    v.sequence?.bind fun items => (items.mapM Value.number?).bind fun ns => some (.numbers ns) := by
  cases v <;> rfl

theorem admit?_strings (v : Value) : strings.admit? v =
    v.sequence?.bind fun items => (items.mapM Value.string?).bind fun ss => some (.strings ss) := by
  cases v <;> rfl

end TypeClass

namespace Correspondence

variable {C : Correspondence}

inductive SlotsAlike (C : Correspondence) : Slot → Slot → Prop
  | number {m n} (h : C.number m n) : SlotsAlike C (.number m) (.number n)
  | string (s) : SlotsAlike C (.string s) (.string s)
  | array {vs ws} (h : List.Forall₂ C.value vs ws) : SlotsAlike C (.array vs) (.array ws)
  | object {ms ns} (h : C.object ms ns) : SlotsAlike C (.object ms) (.object ns)
  | reference {i j b c} (body : C.expr b c) (h : C.value (.reference i b) (.reference j c)) :
    SlotsAlike C (.reference i b) (.reference j c)
  | numbers {ms ns} (h : List.Forall₂ C.number ms ns) : SlotsAlike C (.numbers ms) (.numbers ns)
  | strings (ss) : SlotsAlike C (.strings ss) (.strings ss)
  | any {v w} (h : C.value v w) : SlotsAlike C (.any v) (.any w)

section Arity

variable {X Y : Type} {f : List Slot → X} {g : List Slot → Y} {m : X} {n : Y} {Q : X → Y → Prop}

/-- A function of one slot gives the same on any other number of slots. -/
structure Unary (f : List Slot → X) (misfit : X) : Prop where
  none : f [] = misfit
  many (s t rest) : f (s :: t :: rest) = misfit

structure Binary (f : List Slot → X) (misfit : X) : Prop where
  none : f [] = misfit
  one (s) : f [s] = misfit
  many (s t u rest) : f (s :: t :: u :: rest) = misfit

theorem Unary.rel (hf : Unary f m) (hg : Unary g n) (misfit : Q m n)
    (fit : ∀ s t, C.SlotsAlike s t → Q (f [s]) (g [t])) {ss ts : List Slot}
    (h : List.Forall₂ C.SlotsAlike ss ts) : Q (f ss) (g ts) := by
  rcases h with _ | ⟨head, _ | ⟨_, _⟩⟩
  · rw [hf.none, hg.none]
    exact misfit
  · exact fit _ _ head
  · rw [hf.many, hg.many]
    exact misfit

theorem Binary.rel (hf : Binary f m) (hg : Binary g n) (misfit : Q m n)
    (fit : ∀ s t s' t', C.SlotsAlike s t → C.SlotsAlike s' t' → Q (f [s, s']) (g [t, t']))
    {ss ts : List Slot} (h : List.Forall₂ C.SlotsAlike ss ts) : Q (f ss) (g ts) := by
  rcases h with _ | ⟨first, _ | ⟨second, _ | ⟨_, _⟩⟩⟩
  · rw [hf.none, hg.none]
    exact misfit
  · rw [hf.one, hg.one]
    exact misfit
  · exact fit _ _ _ _ first second
  · rw [hf.many, hg.many]
    exact misfit

end Arity

namespace Lawful

variable (L : C.Lawful)
include L

theorem toValue {s t : Slot} (h : C.SlotsAlike s t) : C.value s.toValue t.toValue := by
  cases h with
  | number h => exact h
  | string s => exact L.text s
  | array h => exact L.array h
  | object h => exact h
  | reference _ h => exact h
  | numbers h =>
    refine L.array ?_
    rw [List.forall₂_map_left_iff, List.forall₂_map_right_iff]
    exact h
  | strings ss =>
    refine L.array ?_
    rw [List.forall₂_map_left_iff, List.forall₂_map_right_iff]
    exact List.forall₂_same.2 fun s _ => L.text s
  | any h => exact h

theorem typed (c : TypeClass) {v w : Value} (h : C.value v w) :
    Option.Rel C.SlotsAlike (c.admit? v) (c.admit? w) := by
  cases c with
  | any => exact .some (.any h)
  | number =>
    rw [TypeClass.admit?_number, TypeClass.admit?_number]
    rcases rel_cases (L.number h) with ⟨hv, hw⟩ | ⟨m, n, hv, hw, related⟩ <;> rw [hv, hw]
    · exact .none
    · exact .some (.number related)
  | string =>
    rw [TypeClass.admit?_string, TypeClass.admit?_string, L.string h]
    cases w.string? with
    | none => exact .none
    | some s => exact .some (.string s)
  | array =>
    rw [TypeClass.admit?_array, TypeClass.admit?_array]
    rcases rel_cases (L.sequence h) with ⟨hv, hw⟩ | ⟨vs, ws, hv, hw, related⟩ <;> rw [hv, hw]
    · exact .none
    · exact .some (.array related)
  | object =>
    rw [TypeClass.admit?_object, TypeClass.admit?_object]
    rcases rel_cases (L.object h) with ⟨hv, hw⟩ | ⟨ms, ns, hv, hw, related⟩ <;> rw [hv, hw]
    · exact .none
    · exact .some (.object related)
  | reference =>
    have bodies := L.body h
    cases v with
    | reference i b =>
      cases w with
      | reference j c =>
        cases bodies with
        | some body => exact .some (.reference body h)
      | _ => cases bodies
    | _ =>
      cases w with
      | reference j c => cases bodies
      | _ => exact .none
  | numbers =>
    rw [TypeClass.admit?_numbers, TypeClass.admit?_numbers]
    rcases rel_cases (L.sequence h) with ⟨hv, hw⟩ | ⟨vs, ws, hv, hw, related⟩ <;> rw [hv, hw]
    · exact .none
    · have numbers := rel_mapM (fun _ _ item => L.number item) related
      rcases rel_cases numbers with ⟨hv, hw⟩ | ⟨ms, ns, hv, hw, related⟩ <;>
        rw [Option.bind_some, Option.bind_some, hv, hw]
      · exact .none
      · exact .some (.numbers related)
  | strings =>
    rw [TypeClass.admit?_strings, TypeClass.admit?_strings]
    rcases rel_cases (L.sequence h) with ⟨hv, hw⟩ | ⟨vs, ws, hv, hw, related⟩ <;> rw [hv, hw]
    · exact .none
    · have strings : vs.mapM Value.string? = ws.mapM Value.string? := by
        clear hv hw
        induction related with
        | nil => rfl
        | cons head _ ih => rw [List.mapM_cons, List.mapM_cons, L.string head, ih]
      rw [Option.bind_some, Option.bind_some, strings]
      cases ws.mapM Value.string? with
      | none => exact .none
      | some ss => exact .some (.strings ss)

theorem check (p : Parameter) (function : String) (position : Nat) {v w : Value}
    (h : C.value v w) :
    Corresponds C.tolerance C.SlotsAlike (p.check function position v)
      (p.check function position w) := by
  have first : ∀ classes : List TypeClass,
      Option.Rel C.SlotsAlike (classes.findSome? (·.admit? v))
        (classes.findSome? (·.admit? w)) := by
    intro classes
    induction classes with
    | nil => exact .none
    | cons c rest ih =>
      rw [List.findSome?_cons, List.findSome?_cons]
      rcases rel_cases (L.typed c h) with ⟨hv, hw⟩ | ⟨s, t, hv, hw, slots⟩ <;> rw [hv, hw]
      · exact ih
      · exact .some slots
  unfold Parameter.check
  rcases rel_cases (first p.accepts) with ⟨hv, hw⟩ | ⟨s, t, hv, hw, slots⟩ <;> rw [hv, hw]
  · exact .error (L.display h (fun shown => .mismatch function position shown p.accepts)
      (fun _ _ => rfl) fun _ => rfl)
  · exact .ok slots

theorem checkAll (function : String) (ps : List Parameter) (position : Nat)
    {vs ws : List Value} (h : List.Forall₂ C.value vs ws) :
    Corresponds C.tolerance (List.Forall₂ C.SlotsAlike)
      (Parameter.checkAll function position ps vs)
      (Parameter.checkAll function position ps ws) := by
  induction ps generalizing vs ws position with
  | nil => exact .ok .nil
  | cons p ps ih =>
    cases h with
    | nil => exact .ok .nil
    | cons head rest =>
      refine (L.check p function position head).bind fun s t first => ?_
      exact (ih (position + 1) rest).bind fun ss ts rest => .ok (.cons first rest)

theorem resolve (function : String) (ps : List Parameter) {vs ws : List Value}
    (h : List.Forall₂ C.value vs ws) :
    Corresponds C.tolerance (List.Forall₂ C.SlotsAlike) (Parameter.resolve function ps vs)
      (Parameter.resolve function ps ws) := by
  unfold Parameter.resolve
  rw [h.length_eq]
  split
  · split
    · exact .ok (List.rel_map (fun _ _ related => .any related) h)
    · exact .error (C.tolerance.refl _ rfl)
  · split
    · exact L.checkAll function ps 0 h
    · exact .error (C.tolerance.refl _ rfl)

end Lawful

end Correspondence

end JsonQuery

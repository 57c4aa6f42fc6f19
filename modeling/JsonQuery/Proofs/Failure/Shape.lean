import JsonQuery.Function.Basic
import JsonQuery.Proofs.Document.Canonical
import JsonQuery.Proofs.Simulation.Slot

/-!
The shape of the slots that a function is given. It is known from the parameters alone: either every slot
stands for its argument as it is, or each has one of the classes of its parameter.
-/
namespace JsonQuery

theorem TypeClass.typeClass_of_admit? {c : TypeClass} {v : Value} {slot : Slot}
    (h : c.admit? v = some slot) : slot.typeClass = c := by
  cases c with
  | any =>
    cases h
    rfl
  | reference =>
    cases v <;> cases h
    rfl
  | number | string | object | array =>
    simp only [admit?_number, admit?_string, admit?_object, admit?_array, Option.map_eq_some_iff] at h
    obtain ⟨_, _, rfl⟩ := h
    rfl
  | numbers | strings =>
    simp only [admit?_numbers, admit?_strings, Option.bind_eq_some_iff, Option.some.injEq] at h
    obtain ⟨_, _, _, _, rfl⟩ := h
    rfl

namespace Parameter

/-- Whether slots are what a function with these parameters is given: at least one for each parameter,
all of the class of all values, if the last parameter is variadic, and else one of an accepted class for
each. -/
def Shaped (ps : List Parameter) (slots : List Slot) : Prop :=
  if isVariadic ps then ps.length ≤ slots.length ∧ ∀ s ∈ slots, ∃ v, s = .any v
  else List.Forall₂ (fun p s => s.typeClass ∈ p.accepts) ps slots

theorem check_shaped {p : Parameter} {function : String} {position : Nat} {v : Value} {slot : Slot}
    (h : p.check function position v = .ok slot) : slot.typeClass ∈ p.accepts := by
  unfold check at h
  split at h
  next found =>
    cases h
    obtain ⟨c, accepted, admitted⟩ := List.exists_of_findSome?_eq_some found
    rw [TypeClass.typeClass_of_admit? admitted]
    exact accepted
  next => cases h

theorem checkAll_shaped {function : String} {position : Nat} {ps : List Parameter} {args : List Value}
    {slots : List Slot} (count : args.length = ps.length)
    (h : checkAll function position ps args = .ok slots) :
    List.Forall₂ (fun p s => s.typeClass ∈ p.accepts) ps slots := by
  induction ps generalizing position args slots with
  | nil =>
    obtain rfl : args = [] := List.length_eq_zero_iff.1 count
    cases h
    exact .nil
  | cons p ps ih =>
    cases args with
    | nil => simp at count
    | cons v vs =>
      rw [checkAll] at h
      obtain ⟨slot, rest, first, more, rfl⟩ := Value.bind_eq_ok List.cons h
      exact .cons (check_shaped first) (ih (by simpa using count) more)

theorem resolve_shaped {function : String} {ps : List Parameter} {args : List Value} {slots : List Slot}
    (h : resolve function ps args = .ok slots) : Shaped ps slots := by
  unfold resolve at h
  unfold Shaped
  split at h
  next variadic =>
    split at h
    next enough =>
      cases h
      simpa [variadic] using enough
    next => cases h
  next fixed =>
    split at h
    next count => simpa [fixed] using checkAll_shaped count h
    next => cases h

namespace Shaped

variable {accepts accepts' : List TypeClass} {slots : List Slot}

theorem exists_one (h : Shaped [.of accepts] slots) : ∃ s, slots = [s] ∧ s.typeClass ∈ accepts := by
  rcases h with _ | ⟨first, _ | _⟩
  exact ⟨_, rfl, first⟩

theorem exists_two (h : Shaped [.of accepts, .of accepts'] slots) :
    ∃ s t, slots = [s, t] ∧ s.typeClass ∈ accepts ∧ t.typeClass ∈ accepts' := by
  rcases h with _ | ⟨first, _ | ⟨second, _ | _⟩⟩
  exact ⟨_, _, rfl, first, second⟩

end Shaped

end Parameter

end JsonQuery

import JsonQuery.Proofs.Alike.Basic

/-!
Objects whose keys stand in another order. Evaluation gives the same but for the order of keys, as long as
nothing lists the members of an object.
-/
namespace JsonQuery

open Eval

def Leeway.keyOrder : Leeway where
  number := Eq
  ordered := False
  refl _ := rfl
  toDouble := congrArg Number.toDouble?
  same left right := congrArg₂ Number.same left right

/-- Nodes and functions that do not list the members of an object. -/
def Registry.orderBlind (r : Registry) : Fragment where
  comparison _ := True
  function := r.builtinsBut [.keys, .values, .items, .toString, .fromItems]
  valueProjection := False

namespace Evaluator

open Correspondence

theorem suits_keyOrder (ev : Evaluator) : ev.Suits (alike .keyOrder) ev.registry.orderBlind := by
  refine suits_alike nofun (fun b called => ?_) fun _ called => called.1
  refine admits_byCategory rfl (fun _ => alike_kinds) (fun _ => alike_equality) ?_ ?_
  · exact fun there => absurd there (called.notMem (by decide))
  · exact fun there => absurd there (called.notMem (by decide))

variable {ev : Evaluator}

/-- On values in which only the order of keys differs, evaluations that do not list members fail for the
same kind of reason, or give results in which only the order of keys differs. -/
theorem execute_reordered {e : Expr} (within : e.Within ev.registry.orderBlind) {v w root root' : Value}
    (reordered : v.Alike .keyOrder w ∧ root.Alike .keyOrder root')
    (references : v.Carries ev.registry.orderBlind ∧ root.Carries ev.registry.orderBlind) (run : Run) :
    Corresponds .byCategory (Value.Alike .keyOrder)
      (ev.execute e v root run).1 (ev.execute e w root' run).1 :=
  ev.suits_keyOrder.execute_alike within reordered.1 reordered.2 references run

/-- `{all: @, same: x == y}` -/
def compareSides : Expr :=
  .selectHash [("all", .current), ("same", .comparison .equal (.field "x") (.field "y"))]

def sides : Value :=
  .object [("x", .object [("a", .null), ("b", .bool true)]), ("y", .object [("b", .bool true), ("a", .null)])]

def turnedSides : Value :=
  .object [("y", .object [("a", .null), ("b", .bool true)]), ("x", .object [("b", .bool true), ("a", .null)])]

theorem turned_alike {key key' : String} (other : key ≠ key') {v v' w w' : Value}
    (first : v.Alike .keyOrder w) (second : v'.Alike .keyOrder w') :
    (Value.object [(key, v), (key', v')]).Alike .keyOrder (.object [(key', w'), (key, w)]) := by
  refine (Value.Alike.object_iff (by simp [other]) (by simp [other.symm])).2 ⟨nofun, fun k => ?_⟩
  by_cases here : key = k
  · subst here
    simpa [Keyed.get?, other.symm] using first
  · by_cases there : key' = k
    · subst there
      simpa [Keyed.get?, other] using second
    · simp [Keyed.get?, here, there]

theorem sides_alike : sides.Alike .keyOrder turnedSides :=
  turned_alike (by decide) (turned_alike (by decide) .null (.bool true))
    (turned_alike (by decide) (.bool true) .null)

theorem execute_turnedSides :
    (Evaluator.execute {} compareSides sides sides (.seeded 0)).1 =
      .ok (.object [("all", sides), ("same", .bool true)]) ∧
    Corresponds .byCategory (Value.Alike .keyOrder)
      (Evaluator.execute {} compareSides sides sides (.seeded 0)).1
      (Evaluator.execute {} compareSides turnedSides turnedSides (.seeded 0)).1 := by
  have within : compareSides.Within (Registry.orderBlind .empty) :=
    ⟨trivial, ⟨trivial, trivial, trivial⟩, trivial⟩
  have carries : sides.Carries (Registry.orderBlind .empty) :=
    Value.Holds.carries ⟨⟨trivial, trivial, trivial⟩, ⟨trivial, trivial, trivial⟩, trivial⟩
  exact ⟨rfl, execute_reordered within ⟨sides_alike, sides_alike⟩ ⟨carries, carries⟩ (.seeded 0)⟩

/-- A reference that lists the keys of an object with the two given keys. -/
def listing (first second : String) : Value := .array [
  .reference (.made 0) (.call "keys" [.current]), .object [(first, .null), (second, .null)]]

/-- A reference in the data brings its own calls: one of `keys` shows the order of keys, although the
expression that calls it does not. -/
theorem not_execute_reordered :
    ¬ ∀ (e : Expr) (v w : Value) (run : Run), e.Within (Registry.orderBlind .empty) →
      v.Alike .keyOrder w →
      Corresponds .byCategory (Value.Alike .keyOrder)
        (Evaluator.execute {} e v v run).1 (Evaluator.execute {} e w w run).1 := by
  intro always
  have within : mapRest.Within (Registry.orderBlind .empty) := mapRest_within ⟨rfl, by decide⟩
  have reordered : (listing "b" "a").Alike .keyOrder (listing "a" "b") := by
    refine .array (.cons (.reference _ _) (.cons ?_ .nil))
    exact turned_alike (by decide) .null .null
  have corresponds := always mapRest (listing "b" "a") (listing "a" "b") (.seeded 0) within reordered
  have left : (Evaluator.execute {} mapRest (listing "b" "a") (listing "b" "a") (.seeded 0)).1 =
      .ok (.array [.array [.string "b", .string "a"]]) := by
    rfl
  have right : (Evaluator.execute {} mapRest (listing "a" "b") (listing "a" "b") (.seeded 0)).1 =
      .ok (.array [.array [.string "a", .string "b"]]) := by
    rfl
  rw [left, right] at corresponds
  obtain (_ | _ | _ | _ | ⟨_ | ⟨keys, _⟩⟩) | _ := corresponds
  obtain _ | _ | _ | _ | ⟨_ | ⟨first, _⟩⟩ := keys
  exact absurd (alike_lawful.string first) (by decide)

end Evaluator

end JsonQuery

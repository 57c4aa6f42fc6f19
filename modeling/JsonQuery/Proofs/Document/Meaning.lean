import JsonQuery.Proofs.Keyed
import JsonQuery.Value.Json

/-!
The values that documents stand for are those of the constants that are read from them.
-/
namespace JsonQuery.Literal

variable {r : Reading}

@[simp] theorem ofLiterals_eq_map (items : List Literal) :
    Value.ofLiterals items = items.map Value.ofLiteral := by
  induction items with
  | nil => rfl
  | cons item rest ih => rw [Value.ofLiterals, ih, List.map_cons]

@[simp] theorem ofLiteralMembers_eq_map (members : List (String × Literal)) :
    Value.ofLiteralMembers members =
      members.map fun member => (member.1, Value.ofLiteral member.2) := by
  induction members with
  | nil => rfl
  | cons member rest ih =>
    obtain ⟨key, value⟩ := member
    rw [Value.ofLiteralMembers, ih, List.map_cons]

theorem mapM_ofLiteral {nesting : Nat} {js : List Json}
    (h : ∀ j, Value.ofJson? r nesting j = (ofJson? r nesting j).map Value.ofLiteral) :
    js.mapM (Value.ofJson? r nesting) = (js.mapM (ofJson? r nesting)).map Value.ofLiterals := by
  induction js with
  | nil => rfl
  | cons j rest ih =>
    rw [List.mapM_cons, List.mapM_cons, h j, ih]
    cases ofJson? r nesting j <;> cases rest.mapM (ofJson? r nesting) <;> rfl

theorem mapM_memberOfLiteral {nesting : Nat} {members : List (Json.Quoted × Json)}
    (h : ∀ j, Value.ofJson? r nesting j = (ofJson? r nesting j).map Value.ofLiteral) :
    members.mapM (fun (key, value) => do return (← key.read?, ← Value.ofJson? r nesting value)) =
      Option.map Value.ofLiteralMembers (members.mapM fun (key, value) => do
        return (← key.read?, ← ofJson? r nesting value)) := by
  induction members with
  | nil => rfl
  | cons member rest ih =>
    obtain ⟨key, value⟩ := member
    rw [List.mapM_cons, List.mapM_cons, ih]
    dsimp only
    rw [h value]
    generalize (List.mapM _ rest : Option _) = entries
    cases key.read? <;> cases ofJson? r nesting value <;> cases entries <;> rfl

theorem value_ofJson? (nesting : Nat) (j : Json) :
    Value.ofJson? r nesting j = (ofJson? r nesting j).map Value.ofLiteral := by
  have number : ∀ n, Value.ofNumeral? r n = (ofNumeral? r n).map Value.ofLiteral := by
    intro n
    rw [Value.ofNumeral?, ofNumeral?, Option.map_map]
    congr 1
    funext meaning
    cases meaning <;> rfl
  have string : ∀ s : Json.Quoted,
      s.read?.map Value.string = (s.read?.map Literal.string).map Value.ofLiteral := by
    intro s
    rw [Option.map_map]
    rfl
  induction nesting generalizing j with
  | zero =>
    cases j with
    | number n => exact number n
    | string s => exact string s
    | _ => rfl
  | succ nesting ih =>
    cases j with
    | number n => exact number n
    | string s => exact string s
    | array items =>
      rw [Value.ofJson?, ofJson?, mapM_ofLiteral ih, Option.map_map, Option.map_map]
      rfl
    | object members =>
      rw [Value.ofJson?, ofJson?, mapM_memberOfLiteral ih]
      generalize (List.mapM _ members : Option _) = entries
      cases entries with
      | none => rfl
      | some entries =>
        have set := Keyed.ofList_map Value.ofLiteral entries
        simp only [← ofLiteralMembers_eq_map] at set
        exact congrArg (some ∘ Value.object) set
    | _ => rfl

end JsonQuery.Literal

import JsonQuery.Handler
import JsonQuery.Proofs.Alike.Basic
import JsonQuery.Proofs.Number.Equality
import JsonQuery.Proofs.Root.Evaluation

/-!
Integers as doubles and as tokens. An integer that a double holds may be given either way: built-in
functions make the same of both, down to the text that is written.
-/
namespace JsonQuery

open Eval

namespace Number

/-- A double that is an integer within 63 bits and a sign, and the token with its digits. -/
def Spelled (m n : Number) : Prop :=
  ∃ x : Int, -2 ^ 63 < x ∧ x < 2 ^ 63 ∧ (Double.ofInt x).toInt? = some x ∧
    m = .double (.ofInt x) ∧ n = .token (toString x)

def Respelled (m n : Number) : Prop := m = n ∨ Spelled m n ∨ Spelled n m

/-- All that evaluation makes of numbers: the integer, the double and the constant. -/
structure Equivalent (m n : Number) : Prop where
  integer : ∃ x, m.toInteger? = some x ∧ n.toInteger? = some x
  double : m.toDouble? = n.toDouble?
  literal : m.toLiteral = n.toLiteral

theorem Spelled.equivalent {m n : Number} (h : Spelled m n) : Equivalent m n := by
  obtain ⟨x, lower, upper, exact, rfl, rfl⟩ := h
  have word : IsWord x := ⟨by omega, by omega⟩
  have inside : wordOfDouble? (.ofInt x) = some x := by
    rw [wordOfDouble?, exact, Option.filter_some, if_pos]
    simp only [decide_eq_true_eq]
    omega
  constructor
  · exact ⟨x, toInteger?_of_wordOfDouble? inside, toInteger?_toString word⟩
  · exact (toDouble?_toString x).symm
  · rw [toLiteral_toString word, toLiteral, toLiteral.ofDouble, inside]

theorem Equivalent.symm {m n : Number} (h : Equivalent m n) : Equivalent n m := by
  obtain ⟨⟨x, left, right⟩, double, literal⟩ := h
  exact ⟨⟨x, right, left⟩, double.symm, literal.symm⟩

theorem Respelled.cases {m n : Number} (h : Respelled m n) : m = n ∨ Equivalent m n := by
  rcases h with same | spelled | spelled
  · exact .inl same
  · exact .inr spelled.equivalent
  · exact .inr spelled.equivalent.symm

theorem Respelled.same_left {m n : Number} (h : Respelled m n) (b : Number) : m.same b = n.same b := by
  rcases h.cases with rfl | ⟨⟨x, left, right⟩, double, _⟩
  · rfl
  · exact same_congr_left left right double b

theorem Respelled.toDouble?_eq {m n : Number} (h : Respelled m n) : m.toDouble? = n.toDouble? := by
  rcases h.cases with rfl | equivalent
  · rfl
  · exact equivalent.double

theorem Respelled.toLiteral_eq {m n : Number} (h : Respelled m n) : m.toLiteral = n.toLiteral := by
  rcases h.cases with rfl | equivalent
  · rfl
  · exact equivalent.literal

end Number

def Leeway.spelling : Leeway where
  number := Number.Respelled
  ordered := True
  refl _ := .inl rfl
  toDouble h := h.toDouble?_eq
  same {m m' n n'} left right :=
    calc m.same n = m'.same n := left.same_left n
      _ = n.same m' := m'.same_comm n
      _ = n'.same m' := right.same_left m'
      _ = m'.same n' := n'.same_comm m'

namespace Evaluator

open Correspondence

theorem suits_spelling (ev : Evaluator) : ev.Suits (alike .spelling) ev.registry.uncalled := by
  refine suits_alike (fun _ => trivial) (fun b _ => ?_) fun _ called => called
  refine admits_byCategory rfl (fun _ => alike_kinds) (fun _ => alike_equality) ?_ ?_
  · exact fun _ => alike_texts trivial Number.Respelled.toLiteral_eq
  · exact fun _ => alike_ordered trivial

variable {ev : Evaluator}

/-- On values in which only the spelling of integers differs, evaluations that call built-in functions alone
fail for the same kind of reason, or give results that differ in this way alone and have the same text. -/
theorem execute_respelled {e : Expr} (builtin : e.Within ev.registry.uncalled) {v w root root' : Value}
    (respelled : v.Alike .spelling w ∧ root.Alike .spelling root')
    (references : v.Carries ev.registry.uncalled ∧ root.Carries ev.registry.uncalled) (run : Run) :
    Corresponds .byCategory (fun a b => a.Alike .spelling b ∧ b.text = a.text)
      (ev.execute e v root run).1 (ev.execute e w root' run).1 := by
  have corresponds := ev.suits_spelling.execute_alike builtin respelled.1 respelled.2 references run
  refine corresponds.mono id fun a b alike => ⟨alike, ?_⟩
  exact (alike.text_eq trivial Number.Respelled.toLiteral_eq).symm

/-- `[max(@), to_string([0]), [0] == [1]]` -/
def tally : Expr := .selectList [.call "max" [.current], .call "to_string" [.index 0],
  .comparison .equal (.index 0) (.index 1)]

def doubles : Value := .array [.number (.double (.ofInt 3)), .number (.double (.ofInt 5))]

def tokens : Value := .array [.number (.token "3"), .number (.token "5")]

theorem execute_tally_respelled :
    (((Evaluator.execute {} tally doubles doubles (.seeded 0)).1.bind Value.text).toOption =
      some "[5,\"3\",false]") ∧
    Corresponds .byCategory (fun a b => a.Alike .spelling b ∧ b.text = a.text)
      (Evaluator.execute {} tally doubles doubles (.seeded 0)).1
      (Evaluator.execute {} tally tokens tokens (.seeded 0)).1 := by
  have respelled : doubles.Alike .spelling tokens := by
    refine .array (.cons (.number (.inr (.inl ?_))) (.cons (.number (.inr (.inl ?_))) .nil))
    · exact ⟨3, by decide, by decide, by decide +kernel, rfl, rfl⟩
    · exact ⟨5, by decide, by decide, by decide +kernel, rfl, rfl⟩
  have carries : doubles.Carries (Registry.uncalled .empty) :=
    Value.Holds.carries ⟨trivial, trivial, trivial⟩
  have builtin : tally.Within (Registry.uncalled .empty) :=
    ⟨⟨rfl, trivial, trivial⟩, ⟨rfl, trivial, trivial⟩, ⟨trivial, trivial, trivial⟩, trivial⟩
  refine ⟨by decide +kernel, execute_respelled builtin ?_ ?_ (.seeded 0)⟩
  · exact ⟨respelled, respelled⟩
  · exact ⟨carries, carries⟩

/-- A function for one integer by its digits, and one that calls the function with the digits of its
argument. -/
def byDigits : Registry :=
  (Registry.empty.register "go" Handler.apply).register "1152921504606846976"
    (Handler.constant (.bool true))

def calling (n : Number) : Value :=
  .array [.reference (.made 0) (.call "go" [.current]), .number n]

/-- A reference in the data may call a custom function, which can see the digits that a double is shown
with. -/
theorem not_execute_respelled :
    ¬ ∀ (ev : Evaluator) (e : Expr) (v w : Value) (run : Run), e.Within ev.registry.uncalled →
      v.Alike .spelling w →
      Corresponds .byCategory (fun a b => a.Alike .spelling b ∧ b.text = a.text)
        (ev.execute e v v run).1 (ev.execute e w w run).1 := by
  intro always
  have builtin : mapRest.Within byDigits.uncalled := mapRest_within rfl
  have respelled : (calling (.double (.ofInt (2 ^ 60)))).Alike .spelling
      (calling (.token "1152921504606846976")) := by
    refine .array (.cons (.reference _ _) (.cons (.number (.inr (.inl ?_))) .nil))
    exact ⟨2 ^ 60, by decide, by decide, by decide +kernel, rfl, by decide +kernel⟩
  have corresponds := always { registry := byDigits } mapRest _ _ (.seeded 0) builtin respelled
  have unknown : (Evaluator.execute { registry := byDigits } mapRest (calling (.double (.ofInt (2 ^ 60))))
      (calling (.double (.ofInt (2 ^ 60)))) (.seeded 0)).1.isOk = false := by
    decide +kernel
  have known : (Evaluator.execute { registry := byDigits } mapRest (calling (.token "1152921504606846976"))
      (calling (.token "1152921504606846976")) (.seeded 0)).1.isOk = true := by
    decide +kernel
  generalize (Evaluator.execute _ mapRest _ _ _).1 = left at corresponds unknown
  generalize (Evaluator.execute _ mapRest _ _ _).1 = right at corresponds known
  cases corresponds with
  | ok => cases unknown
  | error => cases known

end Evaluator

end JsonQuery

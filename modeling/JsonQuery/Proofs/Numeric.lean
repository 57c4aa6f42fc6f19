import JsonQuery.Proofs.Document.Decoded
import JsonQuery.Proofs.Simulation.Content
import JsonQuery.Session

/-!
Evaluation on a document makes no number without a numeric value. Decoding gives doubles and tokens of
integers, and so do constants, counts and everything computed. Only a host can bring in a token that is
no number, and only at such a token does writing fail, or a numeric function.
-/
namespace JsonQuery

open Eval

theorem Number.toDouble?_ofInt_isSome (n : Int) : (Number.ofInt n).toDouble?.isSome = true := by
  unfold Number.ofInt
  split
  · rw [toDouble?, trimmed, trim_toString]
    exact Double.read?_isSome_of_readInt? (readInt?_toString n)
  · rfl

namespace Value

mutual

/-- Whether every number in a value has a numeric value, those in its records included. -/
def isNumeric : Value → Bool
  | .null | .bool _ | .string _ | .reference .. => true
  | .number n => n.toDouble?.isSome
  | .array items => itemsNumeric items
  | .object members => membersNumeric members
  | .record ⟨_, _, fields, none⟩ => fieldsNumeric fields
  | .record ⟨_, _, fields, some items⟩ => fieldsNumeric fields && itemsNumeric items

def itemsNumeric : List Value → Bool
  | [] => true
  | item :: rest => item.isNumeric && itemsNumeric rest

def membersNumeric : List (String × Value) → Bool
  | [] => true
  | (_, value) :: rest => value.isNumeric && membersNumeric rest

def fieldsNumeric : List (Field Value) → Bool
  | [] => true
  | ⟨_, _, value⟩ :: rest => value.isNumeric && fieldsNumeric rest

end

mutual

theorem writable_of_isNumeric : ∀ {v : Value}, v.isNumeric = true → v.Writable
  | .null, _ | .bool _, _ | .string _, _ | .reference .., _ => trivial
  | .number (.double _), _ => trivial
  | .number (.token _), h => h
  | .array _, h => itemsWritable_of_numeric h
  | .object _, h => membersWritable_of_numeric h
  | .record ⟨_, _, _, some _⟩, h => itemsWritable_of_numeric (Bool.and_eq_true_iff.1 h).2
  | .record ⟨_, _, _, none⟩, h => fieldsWritable_of_numeric h

theorem itemsWritable_of_numeric : ∀ {items : List Value}, itemsNumeric items = true →
    ItemsWritable items
  | [], _ => trivial
  | _ :: _, h =>
    have both := Bool.and_eq_true_iff.1 h
    ⟨writable_of_isNumeric both.1, itemsWritable_of_numeric both.2⟩

theorem membersWritable_of_numeric : ∀ {members : List (String × Value)},
    membersNumeric members = true → MembersWritable members
  | [], _ => trivial
  | (_, _) :: _, h =>
    have both := Bool.and_eq_true_iff.1 h
    ⟨writable_of_isNumeric both.1, membersWritable_of_numeric both.2⟩

theorem fieldsWritable_of_numeric : ∀ {fields : List (Field Value)}, fieldsNumeric fields = true →
    FieldsWritable fields
  | [], _ => trivial
  | ⟨_, _, _⟩ :: _, h =>
    have both := Bool.and_eq_true_iff.1 h
    ⟨writable_of_isNumeric both.1, fieldsWritable_of_numeric both.2⟩

end

theorem text_of_isNumeric {v : Value} (h : v.isNumeric = true) : ∃ s, v.text = .ok s := by
  obtain ⟨j, json⟩ := (toJson_isOk_iff v).2 (writable_of_isNumeric h)
  exact ⟨j.compact, by rw [text, json]; rfl⟩

end Value

def Content.numeric (F : Fragment) : Content :=
  ⟨fun n => n.toDouble?.isSome = true, Expr.Within F, fun _ => False⟩

section Numeric

variable {F : Fragment}

theorem Content.numeric_closed (resolver : Resolver) : (Content.numeric F).Closed resolver where
  double _ := rfl
  integer n := Number.toDouble?_ofInt_isSome n
  elements h := h.elim
  field h := h.elim

namespace Value

mutual

theorem isNumeric_of_holds : ∀ {v : Value}, v.Holds (.numeric F) → v.isNumeric = true
  | .null, _ | .bool _, _ | .string _, _ | .reference .., _ => rfl
  | .number _, h => h
  | .array _, h => itemsNumeric_of_hold h
  | .object _, h => membersNumeric_of_hold h

theorem itemsNumeric_of_hold : ∀ {items : List Value}, ItemsHold (.numeric F) items →
    itemsNumeric items = true
  | [], _ => rfl
  | _ :: _, h => Bool.and_eq_true_iff.2 ⟨isNumeric_of_holds h.1, itemsNumeric_of_hold h.2⟩

theorem membersNumeric_of_hold : ∀ {members : List (String × Value)},
    MembersHold (.numeric F) members → membersNumeric members = true
  | [], _ => rfl
  | (_, _) :: _, h => Bool.and_eq_true_iff.2 ⟨isNumeric_of_holds h.1, membersNumeric_of_hold h.2⟩

end

end Value

/-- A failure that shows no number without a numeric value, unless as a bound of `slice`. -/
def Fault.Sound (F : Fragment) (f : Fault) : Prop :=
  f.category ≠ .serialization ∧ (f.category = .invalidNumber → F.function Builtin.slice.name)

theorem Fault.sound_of_isOrdinary {f : Fault} (h : f.isOrdinary = true) : f.Sound F := by
  cases f with
  | number | undecodable | unwritable => cases h
  | _ => exact ⟨nofun, nofun⟩

namespace Tolerance

def sound (F : Fragment) : Tolerance where
  excused _ := False
  alike f g := f.Sound F ∧ f = g
  state := Eq
  refl _ ordinary := ⟨Fault.sound_of_isOrdinary ordinary, rfl⟩
  trans h h' := ⟨h.1, h.2.trans h'.2⟩
  depth := congrArg Run.depth
  supply := supply_of_eq

end Tolerance

namespace Correspondence

def numeric (F : Fragment) : Correspondence := diagonal (.sound F) (.numeric F)

theorem numeric_lawful : (numeric F).Lawful := by
  apply diagonal_lawful (Content.numeric_closed .byTag)
  intro b n numeric none
  have some : n.toDouble?.isSome = true := numeric
  rw [none] at some
  cases some

theorem numeric_admits (b : Builtin) (called : F.function b.name) : (numeric F).Admits b := by
  apply diagonal_admits
  · intro v holds fault failed
    obtain ⟨s, written⟩ := Value.text_of_isNumeric (Value.isNumeric_of_holds holds)
    rw [written] at failed
    cases failed
  · rintro rfl v
    exact ⟨⟨nofun, fun _ => called⟩, rfl⟩
  · exact fun _ => Tolerance.draws_of_eq rfl

end Correspondence

end Numeric

namespace Evaluator

def demand (test : Value → Bool) (alarm : Fault) (v : Value) : Eval Unit :=
  if test v then pure () else throw alarm

/-- Evaluation in which every value that a node is evaluated on or gives has to pass a test. Arguments of
functions are among them, since nodes give them. -/
def watchedWithin (ev : Evaluator) (test : Value → Bool) (alarm : Fault) (root : Value) :
    Nat → Expr → Value → Eval Value
  | 0, _, _ => throw (.recursionLimit ev.maxDepth)
  | levels + 1, e, v => do
    demand test alarm v
    let result ← Eval.nested ev.maxDepth
      (step ev (watchedWithin ev test alarm root levels) root e v)
    demand test alarm result
    return result

def watched (ev : Evaluator) (test : Value → Bool) (alarm : Fault) (e : Expr) (v : Value) :
    Eval Value := do
  let run ← get
  watchedWithin ev test alarm v (ev.maxDepth - run.depth) e v

variable {F : Fragment} {ev : Evaluator}

theorem watchedWithin_simulates (builtin : ev.registry = .empty) (alarm : Fault) {root : Value}
    (holds : root.Holds (.numeric F)) (levels : Nat) {e : Expr} (within : e.Within F) {v : Value}
    (current : v.Holds (.numeric F)) :
    Simulates (.sound F) (Correspondence.numeric F).value
      (watchedWithin ev Value.isNumeric alarm root levels e v) (executeWithin ev root levels e v) := by
  induction levels generalizing e v with
  | zero => exact .throw ⟨Fault.sound_of_isOrdinary rfl, rfl⟩
  | succ levels ih =>
    have absent (name : String) : ev.registry.get? name = none := by
      rw [builtin]
      rfl
    have shared : (Correspondence.numeric F).Shared F ev ev :=
      Correspondence.diagonal_shared Correspondence.numeric_lawful (Content.numeric_closed _) rfl
    have evaluates {e f : Expr} {v w : Value} (expr : (Correspondence.numeric F).expr e f)
        (value : (Correspondence.numeric F).value v w) :
        Simulates (.sound F) (Correspondence.numeric F).value
          (watchedWithin ev Value.isNumeric alarm root levels e v)
          (executeWithin ev root levels f w) := by
      obtain ⟨within, rfl⟩ := expr
      obtain ⟨current, rfl⟩ := value
      exact ih within current
    have node : Simulates (.sound F) (Correspondence.numeric F).value
        (step ev (watchedWithin ev Value.isNumeric alarm root levels) root e v)
        (step ev (executeWithin ev root levels) root e v) := by
      apply shared.step (fun _ => ⟨holds, rfl⟩) evaluates _ (within.layer fun _ h => ⟨h, rfl⟩)
        ⟨current, rfl⟩
      intro name args args' called related
      apply shared.lawful.builtin rfl evaluates (absent name) (absent name) _ related
      rintro b rfl
      exact Correspondence.numeric_admits b called
    have passes : demand Value.isNumeric alarm v = pure () :=
      if_pos (Value.isNumeric_of_holds current)
    rw [watchedWithin, passes, pure_bind, ← bind_pure (executeWithin ev root (levels + 1) e v)]
    apply Simulates.bind (node.nested (Tolerance.opens_of_eq rfl ev.maxDepth) (.inl rfl))
    rintro result _ ⟨numeric, rfl⟩
    have passes : demand Value.isNumeric alarm result = pure () :=
      if_pos (Value.isNumeric_of_holds numeric)
    rw [passes, pure_bind]
    exact .pure ⟨numeric, rfl⟩

theorem watched_agrees (builtin : ev.registry = .empty) (alarm : Fault) {e : Expr}
    (within : e.Within F) {v : Value} (holds : v.Holds (.numeric F)) (run : Run) :
    ev.watched Value.isNumeric alarm e v run = ev.evaluate e v run ∧
      match (ev.evaluate e v run).1 with
      | .ok w => w.isNumeric = true
      | .error fault => fault.Sound F := by
  have simulates : Simulates (.sound F) (Correspondence.numeric F).value
      (ev.watched Value.isNumeric alarm e v) (ev.evaluate e v) := by
    intro run _ start
    cases start
    exact watchedWithin_simulates builtin alarm holds (ev.maxDepth - run.depth) within holds rfl
  rcases simulates (Eq.refl run) with ⟨_, excused, _⟩ | ⟨state, outcome⟩
  · exact excused.elim
  · rcases hx : ev.watched Value.isNumeric alarm e v run with ⟨x, after⟩
    rcases hy : ev.evaluate e v run with ⟨y, after'⟩
    rw [hx, hy] at state outcome
    cases state
    cases outcome with
    | ok result =>
      obtain ⟨numeric, rfl⟩ := result
      exact ⟨rfl, Value.isNumeric_of_holds numeric⟩
    | error fault =>
      obtain ⟨sound, rfl⟩ := fault
      exact ⟨rfl, sound⟩

theorem holds_of_read? {r : Reading} {t : String} {v : Value} (decoded : Value.read? r t = some v)
    (F : Fragment) : v.Holds (.numeric F) := by
  obtain ⟨l, _, _, rfl⟩ := Value.literal_of_read? decoded
  exact (Content.numeric_closed .byTag).literal l

theorem searchText_ne_serialization {r : Reading} {expr t : String} {e : Expr} {v : Value}
    (tree : Expr.read? r expr = some e) (decoded : Value.read? r t = some v) {g : Generator} {fault : Fault}
    (failed : searchText r g .empty expr t = .error fault) : fault.category ≠ .serialization := by
  let run : Run := { Run.start g with supply := v.identityBound }
  have builtin : ({ registry := .empty } : Evaluator).registry = .empty := rfl
  have ends := (watched_agrees builtin .undecodable e.within_all (holds_of_read? decoded .all) run).2
  have search : searchText r g .empty expr t =
      (({ registry := .empty } : Evaluator).evaluate e v run).1 >>= Value.text := by
    unfold searchText
    rw [tree, decoded]
    rfl
  rw [search] at failed
  cases result : (({ registry := .empty } : Evaluator).evaluate e v run).1 with
  | ok w =>
    rw [result] at failed ends
    obtain ⟨s, written⟩ := Value.text_of_isNumeric ends
    have : w.text = .error fault := failed
    rw [written] at this
    cases this
  | error other =>
    rw [result] at failed ends
    cases failed
    exact ends.1

/-- On a document, with built-in functions only, every value that comes up is numeric. So neither the
evaluation nor writing its result fails at a number that cannot be written, and only `slice` fails at one
that is none. -/
theorem evaluate_numeric {r : Reading} {t : String} {v : Value} (decoded : Value.read? r t = some v) (e : Expr)
    {ev : Evaluator} (builtin : ev.registry = .empty) (run : Run) :
    (∀ alarm, ev.watched Value.isNumeric alarm e v run = ev.evaluate e v run) ∧
    (∀ w, (ev.evaluate e v run).1 = .ok w → w.isNumeric = true ∧ ∃ s, w.text = .ok s) ∧
    (∀ fault, (ev.evaluate e v run).1 = .error fault → fault.category ≠ .serialization ∧
      (e.Within (.calling (· ≠ Builtin.slice.name)) → fault.category ≠ .invalidNumber)) ∧
    ∀ g expr fault, Expr.read? r expr = some e → searchText r g .empty expr t = .error fault →
      fault.category ≠ .serialization := by
  have agrees (alarm : Fault) :=
    watched_agrees builtin alarm e.within_all (holds_of_read? decoded .all) run
  refine ⟨fun alarm => (agrees alarm).1, fun w result => ?_, fun fault failed => ⟨?_, ?_⟩,
    fun g expr fault tree failed => searchText_ne_serialization tree decoded failed⟩
  · have numeric := (agrees .undecodable).2
    rw [result] at numeric
    exact ⟨numeric, Value.text_of_isNumeric numeric⟩
  · have sound := (agrees .undecodable).2
    rw [failed] at sound
    exact sound.1
  · intro within number
    have sound := (watched_agrees builtin .undecodable within (holds_of_read? decoded _) run).2
    rw [failed] at sound
    exact sound.2 number rfl

def amounts : String := "[9007199254740993, 0.5]"

def total : Expr := .call "sum" [.current]

theorem evaluate_total : ∃ v w, Value.read? .nearest amounts = some v ∧
    (Evaluator.evaluate {} total v (.seeded 0)).1 = .ok w ∧
    w.isNumeric = true ∧ ∃ s, w.text = .ok s := by
  have ends : (Value.read? .nearest amounts).any
      (fun v => (Evaluator.evaluate {} total v (.seeded 0)).1.isOk) = true := by decide +kernel
  obtain ⟨v, decoded, succeeds⟩ := (Option.any_eq_true _ _).1 ends
  cases result : (Evaluator.evaluate {} total v (.seeded 0)).1 with
  | ok w => exact ⟨v, w, decoded, result, (evaluate_numeric decoded total rfl (.seeded 0)).2.1 w result⟩
  | error fault =>
    rw [result] at succeeds
    cases succeeds

end Evaluator

end JsonQuery

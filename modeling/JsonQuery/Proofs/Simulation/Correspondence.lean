import JsonQuery.Evaluator
import JsonQuery.Proofs.Simulation.Outcome

/-!
Correspondences between evaluations. A correspondence relates the values of one evaluation to those of
another, and the expressions that references carry. It is lawful when whatever nodes and functions can
tell about a value is the same, or corresponds, on both sides.

Some nodes and functions tell more about a value than the others do. Their needs are laws of their own,
and a fragment says which of these nodes an expression may hold.
-/
namespace JsonQuery

/-- What expressions may hold; every node that is not mentioned is allowed. -/
structure Fragment where
  comparison : Comparison → Prop
  function : String → Prop
  valueProjection : Prop

namespace Fragment

def all : Fragment := ⟨fun _ => True, fun _ => True, True⟩

def calling (function : String → Prop) : Fragment := { all with function }

end Fragment

namespace Expr

mutual

/-- Whether all nodes of an expression belong to a fragment, those under references included. -/
def Within (F : Fragment) : Expr → Prop
  | .comparison op lhs rhs => F.comparison op ∧ lhs.Within F ∧ rhs.Within F
  | .reference body | .flatten body | .not body => body.Within F
  | .call name args => F.function name ∧ AllWithin F args
  | .filterProjection lhs rhs predicate => lhs.Within F ∧ rhs.Within F ∧ predicate.Within F
  | .selectHash entries => EntriesWithin F entries
  | .selectList items => AllWithin F items
  | .pipe stages => AllWithin F stages
  | .or lhs rhs | .and lhs rhs | .projection lhs rhs | .subexpression lhs rhs
  | .indexExpression lhs rhs => lhs.Within F ∧ rhs.Within F
  | .valueProjection lhs rhs => F.valueProjection ∧ lhs.Within F ∧ rhs.Within F
  | .field _ | .identity | .current | .root | .index _ | .literal _ | .slice _ => True

def AllWithin (F : Fragment) : List Expr → Prop
  | [] => True
  | e :: rest => e.Within F ∧ AllWithin F rest

def EntriesWithin (F : Fragment) : List (String × Expr) → Prop
  | [] => True
  | (_, e) :: rest => e.Within F ∧ EntriesWithin F rest

end

/-- The same node on both sides, with related expressions in it. -/
inductive Layer (F : Fragment) (X : Expr → Expr → Prop) : Expr → Expr → Prop
  | comparison {op l l' r r'} (allowed : F.comparison op) (lhs : X l l') (rhs : X r r') :
    Layer F X (.comparison op l r) (.comparison op l' r')
  | reference {b b'} (body : X b b') : Layer F X (.reference b) (.reference b')
  | call {name as as'} (allowed : F.function name) (args : List.Forall₂ X as as') :
    Layer F X (.call name as) (.call name as')
  | field (name) : Layer F X (.field name) (.field name)
  | filterProjection {l l' r r' p p'} (lhs : X l l') (rhs : X r r') (predicate : X p p') :
    Layer F X (.filterProjection l r p) (.filterProjection l' r' p')
  | flatten {b b'} (body : X b b') : Layer F X (.flatten b) (.flatten b')
  | identity : Layer F X .identity .identity
  | current : Layer F X .current .current
  | root : Layer F X .root .root
  | index (place) : Layer F X (.index place) (.index place)
  | literal (value) : Layer F X (.literal value) (.literal value)
  | selectHash {es es'} (entries : List.Forall₂ (fun a b => a.1 = b.1 ∧ X a.2 b.2) es es') :
    Layer F X (.selectHash es) (.selectHash es')
  | selectList {es es'} (items : List.Forall₂ X es es') :
    Layer F X (.selectList es) (.selectList es')
  | or {l l' r r'} (lhs : X l l') (rhs : X r r') : Layer F X (.or l r) (.or l' r')
  | and {l l' r r'} (lhs : X l l') (rhs : X r r') : Layer F X (.and l r) (.and l' r')
  | not {b b'} (body : X b b') : Layer F X (.not b) (.not b')
  | pipe {es es'} (stages : List.Forall₂ X es es') : Layer F X (.pipe es) (.pipe es')
  | projection {l l' r r'} (lhs : X l l') (rhs : X r r') :
    Layer F X (.projection l r) (.projection l' r')
  | subexpression {l l' r r'} (lhs : X l l') (rhs : X r r') :
    Layer F X (.subexpression l r) (.subexpression l' r')
  | indexExpression {l l' r r'} (lhs : X l l') (rhs : X r r') :
    Layer F X (.indexExpression l r) (.indexExpression l' r')
  | slice (bounds) : Layer F X (.slice bounds) (.slice bounds)
  | valueProjection {l l' r r'} (allowed : F.valueProjection) (lhs : X l l') (rhs : X r r') :
    Layer F X (.valueProjection l r) (.valueProjection l' r')

section Within

variable {F : Fragment}

theorem allWithin_iff {es : List Expr} : AllWithin F es ↔ ∀ e ∈ es, e.Within F := by
  induction es with
  | nil => simp [AllWithin]
  | cons e rest ih => simp [AllWithin, ih]

theorem entriesWithin_iff {entries : List (String × Expr)} :
    EntriesWithin F entries ↔ ∀ entry ∈ entries, entry.2.Within F := by
  induction entries with
  | nil => simp [EntriesWithin]
  | cons entry rest ih => simp [EntriesWithin, ih]

theorem Within.layer {X : Expr → Expr → Prop} (each : ∀ e : Expr, e.Within F → X e e) {e : Expr}
    (h : e.Within F) : Layer F X e e := by
  have list {es : List Expr} (h : AllWithin F es) : List.Forall₂ X es es :=
    List.forall₂_same.2 fun e there => each e (allWithin_iff.1 h e there)
  cases e with
  | comparison => exact .comparison h.1 (each _ h.2.1) (each _ h.2.2)
  | reference => exact .reference (each _ h)
  | call => exact .call h.1 (list h.2)
  | field name => exact .field name
  | filterProjection => exact .filterProjection (each _ h.1) (each _ h.2.1) (each _ h.2.2)
  | flatten => exact .flatten (each _ h)
  | identity => exact .identity
  | current => exact .current
  | root => exact .root
  | index place => exact .index place
  | literal value => exact .literal value
  | selectHash =>
    refine .selectHash (List.forall₂_same.2 fun entry there => ⟨rfl, ?_⟩)
    exact each _ (entriesWithin_iff.1 h entry there)
  | selectList => exact .selectList (list h)
  | or => exact .or (each _ h.1) (each _ h.2)
  | and => exact .and (each _ h.1) (each _ h.2)
  | not => exact .not (each _ h)
  | pipe => exact .pipe (list h)
  | projection => exact .projection (each _ h.1) (each _ h.2)
  | subexpression => exact .subexpression (each _ h.1) (each _ h.2)
  | indexExpression => exact .indexExpression (each _ h.1) (each _ h.2)
  | slice bounds => exact .slice bounds
  | valueProjection => exact .valueProjection h.1 (each _ h.2.1) (each _ h.2.2)

end Within

mutual

theorem within_all : ∀ e : Expr, e.Within .all
  | .comparison _ lhs rhs => ⟨trivial, within_all lhs, within_all rhs⟩
  | .reference body | .flatten body | .not body => within_all body
  | .call _ args => ⟨trivial, allWithin_all args⟩
  | .filterProjection lhs rhs predicate => ⟨within_all lhs, within_all rhs, within_all predicate⟩
  | .selectHash entries => entriesWithin_all entries
  | .selectList items | .pipe items => allWithin_all items
  | .or lhs rhs | .and lhs rhs | .projection lhs rhs | .subexpression lhs rhs
  | .indexExpression lhs rhs => ⟨within_all lhs, within_all rhs⟩
  | .valueProjection lhs rhs => ⟨trivial, within_all lhs, within_all rhs⟩
  | .field _ | .identity | .current | .root | .index _ | .literal _ | .slice _ => trivial

theorem allWithin_all : ∀ es : List Expr, AllWithin .all es
  | [] => trivial
  | e :: rest => ⟨within_all e, allWithin_all rest⟩

theorem entriesWithin_all : ∀ entries : List (String × Expr), EntriesWithin .all entries
  | [] => trivial
  | (_, e) :: rest => ⟨within_all e, entriesWithin_all rest⟩

end

end Expr

/-- What is carried over from one evaluation to another. -/
structure Correspondence where
  tolerance : Tolerance
  expr : Expr → Expr → Prop
  value : Value → Value → Prop

namespace Correspondence

variable (C : Correspondence)

def number (m n : Number) : Prop := C.value (.number m) (.number n)

def object (ms ns : List (String × Value)) : Prop := C.value (.object ms) (.object ns)

def member (a b : String × Value) : Prop := a.1 = b.1 ∧ C.value a.2 b.2

/-- The laws that every node and function relies on: what values show of themselves, and which values
may be built. -/
structure Lawful : Prop where
  isNull {v w} : C.value v w → v.isNull = w.isNull
  isFalseLike {v w} : C.value v w → v.isFalseLike = w.isFalseLike
  string {v w} : C.value v w → v.string? = w.string?
  coerce {v w} : C.value v w → v.coerce? = w.coerce?
  number {v w} : C.value v w → Option.Rel C.number v.number? w.number?
  sequence {v w} : C.value v w → Option.Rel (List.Forall₂ C.value) v.sequence? w.sequence?
  object {v w} : C.value v w → Option.Rel C.object v.object? w.object?
  body {v w} : C.value v w → Option.Rel C.expr v.body? w.body?
  kind {v w} : C.value v w → C.tolerance.Shows v.kind w.kind
  display {v w} : C.value v w → C.tolerance.Shows v.display w.display
  toDouble {m n} : C.number m n → m.toDouble? = n.toDouble?
  noValue (b : Builtin) {m n} : C.number m n → n.toDouble? = none →
    C.tolerance.alike (.number (.noValue b.name (String.ofList m.display)))
      (.number (.noValue b.name (String.ofList n.display)))
  size {ms ns} : C.object ms ns → ms.length = ns.length
  get (key) {ms ns} : C.object ms ns →
    Option.Rel C.value (Keyed.get? key ms) (Keyed.get? key ns)
  null : C.value .null .null
  bool (b) : C.value (.bool b) (.bool b)
  text (s) : C.value (.string s) (.string s)
  double (d) : C.value (.ofDouble d) (.ofDouble d)
  nat (n) : C.value (.ofNat n) (.ofNat n)
  literal (l) : C.value (.ofLiteral l) (.ofLiteral l)
  array {vs ws} : List.Forall₂ C.value vs ws → C.value (.array vs) (.array ws)
  reference (i) {e f} : C.expr e f → C.value (.reference i e) (.reference i f)
  empty : C.object [] []
  insert (key) {v w ms ns} : C.value v w → C.object ms ns →
    C.object (Keyed.insert key v ms) (Keyed.insert key w ns)
  insertAll {ms ns ms' ns'} : C.object ms ns → C.object ms' ns' →
    C.object (Keyed.insertAll ms ms') (Keyed.insertAll ns ns')

/-- What `type`, `to_array`, `to_number` and `from_items` tell apart. -/
def Kinds : Prop := ∀ ⦃v w⦄, C.value v w → v.kind = w.kind

def Equality : Prop :=
  ∀ ⦃v v' w w'⦄, C.value v v' → C.value w w' → v.same w = v'.same w'

def Texts : Prop := ∀ ⦃v w⦄, C.value v w → Corresponds C.tolerance Eq v.text w.text

/-- What `slice` shows of a bound that is no integer. -/
def Bounds : Prop := ∀ ⦃v w⦄, C.value v w →
  C.tolerance.alike (.number (.noBound v.display)) (.number (.noBound w.display))

def Ordered : Prop := ∀ ⦃ms ns⦄, C.object ms ns → List.Forall₂ C.member ms ns

theorem Ordered.values {C : Correspondence} (order : C.Ordered) {ms ns : List (String × Value)}
    (h : C.object ms ns) : List.Forall₂ C.value (Keyed.values ms) (Keyed.values ns) :=
  List.rel_map (fun _ _ member => member.2) (order h)

end Correspondence

end JsonQuery

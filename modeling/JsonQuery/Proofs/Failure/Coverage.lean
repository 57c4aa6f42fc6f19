import JsonQuery.Function.Apply
import JsonQuery.Proofs.Failure.Raises
import JsonQuery.Proofs.Failure.Shape

/-!
The slots that a built-in function is given fit it: whatever arguments its parameters admit, the function
does not find that its slots have the wrong shape.
-/
namespace JsonQuery

def Fault.Regular : Fault → Prop
  | .type (.slots _) | .type .noLength => False
  | _ => True

open Fault (Regular)
open Parameter (Shaped)

section Writing

theorem Number.toJson_regular (n : Number) : Raises Regular n.toJson := by
  refine Raises.map_iff.2 ?_
  unfold toLiteral
  cases n with
  | double d => trivial
  | token text =>
    dsimp only
    split
    · trivial
    · split <;> trivial

namespace Value

mutual

theorem toJson_regular : ∀ v : Value, Raises Regular v.toJson
  | .null | .bool _ | .string _ | .reference .. => trivial
  | .number n => n.toJson_regular
  | .array items => (itemsToJson_regular items).bind fun _ => trivial
  | .object members => (membersToJson_regular members).bind fun _ => trivial
  | .record ⟨_, _, _, some items⟩ => (itemsToJson_regular items).bind fun _ => trivial
  | .record ⟨_, _, fields, none⟩ => (fieldsToJson_regular fields).bind fun _ => trivial

theorem itemsToJson_regular : ∀ items : List Value, Raises Regular (itemsToJson items)
  | [] => trivial
  | item :: rest =>
    (toJson_regular item).bind fun _ => (itemsToJson_regular rest).bind fun _ => trivial

theorem membersToJson_regular : ∀ members : List (String × Value),
    Raises Regular (membersToJson members)
  | [] => trivial
  | (_, value) :: rest =>
    (toJson_regular value).bind fun _ => (membersToJson_regular rest).bind fun _ => trivial

theorem fieldsToJson_regular : ∀ fields : List (Field Value), Raises Regular (fieldsToJson fields)
  | [] => trivial
  | ⟨_, _, value⟩ :: rest =>
    (toJson_regular value).bind fun _ => (fieldsToJson_regular rest).bind fun _ => trivial

end

end Value

end Writing

namespace Slice

variable {α : Type}

theorem forward_regular (items : List α) (start stop step : Int64) :
    Raises Regular (forward items start stop step) := by
  dsimp only [forward]
  split
  · trivial
  · split <;> trivial

theorem bidirectional_regular (items : List α) (bounds : SliceBounds) :
    Raises Regular (bidirectional items bounds) := by
  dsimp only [bidirectional]
  split <;> trivial

end Slice

namespace Function

section Parts

@[simp] theorem numericValue_regular (b : Builtin) (n : Number) : Raises Regular (numericValue b n) := by
  unfold numericValue
  split <;> trivial

@[simp] theorem total_regular (b : Builtin) (items : List Number) : Raises Regular (total b items) :=
  (Raises.mapM fun n _ => numericValue_regular b n).bind fun _ => trivial

@[simp] theorem valued_regular (b : Builtin) (items : List Number) : Raises Regular (valued b items) :=
  Raises.mapM fun n _ => (numericValue_regular b n).bind fun _ => trivial

@[simp] theorem extremeNumber_regular (b : Builtin) (wanted : Ordering) (items : List Number) :
    Raises Regular (extremeNumber b wanted items) :=
  Raises.foldlM (fun _ n => (numericValue_regular b n).bind fun _ => Raises.ok _) items none

@[simp] theorem sortedArray_regular (sorted : Option (List Value)) : Raises Regular (sortedArray sorted) := by
  cases sorted <;> trivial

@[simp] theorem canonicalText_regular (v : Value) : Raises Regular (canonicalText v) := by
  unfold canonicalText
  split
  · trivial
  · exact Raises.map_iff.2 (Value.toJson_regular v)

theorem mergeMembers_regular (v : Value) : Raises Regular (mergeMembers v) := by
  unfold mergeMembers
  split <;> trivial

theorem addEntry_regular (members : List (String × Value)) (entry : Value) :
    Raises Regular (addEntry members entry) := by
  unfold addEntry
  split
  · trivial
  · trivial
  · exact (canonicalText_regular _).bind fun _ => trivial

theorem bound_regular (v : Value) : Raises Regular (bound v) := by
  unfold bound
  split <;> trivial

theorem sortKey_regular (b : Builtin) (v : Value) : Raises Regular (sortKey b v) := by
  unfold sortKey
  split <;> simp [Regular]

theorem checkKind_regular (b : Builtin) (first : Option SortKey) (key : SortKey) :
    Raises Regular (checkKind b first key) := by
  unfold checkKind
  split
  · split <;> trivial
  · trivial

end Parts

section Plain

variable {slots : List Slot}

theorem startsWith_regular (h : Shaped Builtin.startsWith.parameters slots) :
    Raises Regular (startsWith slots) := by
  obtain ⟨s, t, rfl, fit, fit'⟩ := h.exists_two
  cases s <;> cases t <;> simp_all [startsWith, Slot.typeClass]

theorem endsWith_regular (h : Shaped Builtin.endsWith.parameters slots) :
    Raises Regular (endsWith slots) := by
  obtain ⟨s, t, rfl, fit, fit'⟩ := h.exists_two
  cases s <;> cases t <;> simp_all [endsWith, Slot.typeClass]

theorem join_regular (h : Shaped Builtin.join.parameters slots) :
    Raises Regular (join slots) := by
  obtain ⟨s, t, rfl, fit, fit'⟩ := h.exists_two
  cases s <;> cases t <;> simp_all [join, Slot.typeClass]

theorem toString_regular (h : Shaped Builtin.toString.parameters slots) :
    Raises Regular (toString slots) := by
  obtain ⟨s, rfl, fit⟩ := h.exists_one
  cases s <;> simp_all [toString, Slot.typeClass]

theorem unary_regular (b : Builtin) (op : Double → Double) (h : Shaped [.of [.number]] slots) :
    Raises Regular (unary b op slots) := by
  obtain ⟨s, rfl, fit⟩ := h.exists_one
  cases s <;> simp_all [unary, Slot.typeClass]

theorem sum_regular (h : Shaped Builtin.sum.parameters slots) : Raises Regular (sum slots) := by
  obtain ⟨s, rfl, fit⟩ := h.exists_one
  cases s <;> simp_all [sum, Slot.typeClass]

theorem avg_regular (h : Shaped Builtin.avg.parameters slots) : Raises Regular (avg slots) := by
  obtain ⟨s, rfl, fit⟩ := h.exists_one
  cases s <;> simp_all [avg, Slot.typeClass]

theorem toNumber_regular (h : Shaped Builtin.toNumber.parameters slots) :
    Raises Regular (toNumber slots) := by
  obtain ⟨s, rfl, fit⟩ := h.exists_one
  cases s with
  | any v =>
    dsimp only [toNumber]
    split <;> trivial
  | _ => simp_all [Slot.typeClass]

theorem extremum_regular (b : Builtin) (wanted : Ordering) (h : Shaped [.of [.numbers, .strings]] slots) :
    Raises Regular (extremum b wanted slots) := by
  obtain ⟨s, rfl, fit⟩ := h.exists_one
  cases s with
  | numbers items => exact (extremeNumber_regular b wanted items).bind fun _ => trivial
  | strings items => trivial
  | _ => simp_all [Slot.typeClass]

theorem sort_regular (sorter : Sorter) (h : Shaped Builtin.sort.parameters slots) :
    Raises Regular (sort sorter slots) := by
  obtain ⟨s, rfl, fit⟩ := h.exists_one
  cases s with
  | numbers items => exact (valued_regular .sort items).bind fun _ => sortedArray_regular _
  | strings items => exact sortedArray_regular _
  | _ => simp_all [Slot.typeClass]

theorem dedup_regular (h : Shaped Builtin.dedup.parameters slots) : Raises Regular (dedup slots) := by
  obtain ⟨s, rfl, fit⟩ := h.exists_one
  refine Raises.bind ?_ fun _ => trivial
  cases s <;> simp_all [keyed, Slot.typeClass]

theorem length_regular (h : Shaped Builtin.length.parameters slots) : Raises Regular (length slots) := by
  obtain ⟨s, rfl, fit⟩ := h.exists_one
  cases s <;> simp_all [length, Slot.typeClass]

theorem contains_regular (h : Shaped Builtin.contains.parameters slots) :
    Raises Regular (contains slots) := by
  obtain ⟨s, t, rfl, fit, fit'⟩ := h.exists_two
  cases s <;> cases t <;> simp_all [contains, Slot.typeClass]

theorem containsAny_regular (h : Shaped Builtin.containsAny.parameters slots) :
    Raises Regular (containsAny slots) := by
  obtain ⟨s, t, rfl, fit, fit'⟩ := h.exists_two
  cases t with
  | any v =>
    dsimp only [containsAny]
    split
    · trivial
    · cases s <;> simp_all [Slot.typeClass]
  | _ => simp_all [Slot.typeClass]

theorem reverse_regular (h : Shaped Builtin.reverse.parameters slots) : Raises Regular (reverse slots) := by
  obtain ⟨s, rfl, fit⟩ := h.exists_one
  cases s <;> simp_all [reverse, Slot.typeClass]

theorem toArray_regular (h : Shaped Builtin.toArray.parameters slots) : Raises Regular (toArray slots) := by
  obtain ⟨s, rfl, fit⟩ := h.exists_one
  cases s <;> simp_all [toArray, Slot.typeClass]

/-- The arguments are counted and looked at by the function itself. -/
theorem slice_regular (slots : List Slot) : Raises Regular (slice slots) := by
  unfold slice
  split
  next subject start stop rest _ =>
    split
    · trivial
    · split
      next => trivial
      next items _ =>
        have walked start stop step : Raises Regular (do
            return Value.array (← Slice.forward items start stop step)) :=
          Raises.bind (Slice.forward_regular ..) fun selected => Raises.ok _
        refine (bound_regular _).bind fun start => (bound_regular _).bind fun stop => ?_
        split
        · exact (bound_regular _).bind (walked start stop)
        · exact walked start stop 1
  next => trivial

theorem keys_regular (h : Shaped Builtin.keys.parameters slots) : Raises Regular (keys slots) := by
  obtain ⟨s, rfl, fit⟩ := h.exists_one
  cases s <;> simp_all [keys, Slot.typeClass]

theorem values_regular (h : Shaped Builtin.values.parameters slots) : Raises Regular (values slots) := by
  obtain ⟨s, rfl, fit⟩ := h.exists_one
  cases s <;> simp_all [values, Slot.typeClass]

theorem items_regular (h : Shaped Builtin.items.parameters slots) : Raises Regular (items slots) := by
  obtain ⟨s, rfl, fit⟩ := h.exists_one
  cases s <;> simp_all [items, Slot.typeClass]

theorem get_regular (h : Shaped Builtin.get.parameters slots) : Raises Regular (get slots) := by
  obtain ⟨s, t, rfl, fit, fit'⟩ := h.exists_two
  cases s <;> cases t <;> simp_all [Slot.typeClass]
  next members key =>
    dsimp only [get]
    split <;> trivial

theorem merge_regular (slots : List Slot) : Raises Regular (merge slots) :=
  (Raises.mapM fun slot _ => mergeMembers_regular slot.toValue).bind fun _ => trivial

theorem fromItems_regular (h : Shaped Builtin.fromItems.parameters slots) :
    Raises Regular (fromItems slots) := by
  obtain ⟨s, rfl, fit⟩ := h.exists_one
  cases s <;> simp_all [fromItems, Slot.typeClass, Raises.foldlM addEntry_regular]

theorem type_regular (h : Shaped Builtin.type.parameters slots) : Raises Regular (type slots) := by
  obtain ⟨s, rfl, fit⟩ := h.exists_one
  cases s with
  | any v => cases v <;> trivial
  | _ => simp_all [Slot.typeClass]

end Plain

section Nested

variable {evaluate : Evaluate} (evaluates : ∀ e v, Eval.Raises Regular (evaluate e v))
include evaluates

theorem keysBy_regular (b : Builtin) (body : Expr) (first : Option SortKey) (items : List Value) :
    Eval.Raises Regular (keysBy b evaluate body first items) := by
  induction items generalizing first with
  | nil => exact .pure []
  | cons item rest ih =>
    refine (evaluates body item).bind fun result => ?_
    refine Eval.Raises.bind (.ofExcept ?_) fun key => (ih _).bind fun keys => .pure _
    exact (sortKey_regular b result).bind (checkKind_regular b first)

theorem byKey_regular (b : Builtin) (few : List Value → Value)
    {many : List Value → List SortKey → Except Fault Value} (regular : ∀ items keys, Raises Regular (many items keys))
    {slots : List Slot} (h : Shaped [.of [.array], .of [.reference]] slots) :
    Eval.Raises Regular (byKey b evaluate few many slots) := by
  obtain ⟨s, t, rfl, fit, fit'⟩ := h.exists_two
  cases s <;> cases t <;> simp_all [Slot.typeClass]
  next items _ body =>
    dsimp only [byKey]
    split
    · exact .pure _
    · exact (keysBy_regular evaluates b body none items).bind fun keys => .ofExcept (regular items keys)

theorem map_regular {slots : List Slot} (h : Shaped Builtin.map.parameters slots) :
    Eval.Raises Regular (map evaluate slots) := by
  obtain ⟨s, t, rfl, fit, fit'⟩ := h.exists_two
  cases s <;> cases t <;> simp_all [Slot.typeClass]
  next body items =>
    exact (Eval.Raises.composes.mapM (g := evaluate body) fun item _ => evaluates body item).bind fun _ => .pure _

omit evaluates in
theorem shuffle_regular {slots : List Slot} (h : Shaped Builtin.shuffle.parameters slots) :
    Eval.Raises Regular (shuffle slots) := by
  obtain ⟨s, rfl, fit⟩ := h.exists_one
  cases s <;> simp_all [Slot.typeClass]
  next items => exact Eval.Raises.bind (.draw _) fun swaps => .pure _

end Nested

end Function

/-- A built-in function on slots of the shape of its parameters. Only an expression that it evaluates could
raise another fault. -/
theorem Builtin.apply_regular (sorter : Sorter) {evaluate : Function.Evaluate}
    (evaluates : ∀ e v, Eval.Raises Regular (evaluate e v)) (b : Builtin) {slots : List Slot}
    (h : Shaped b.parameters slots) : Eval.Raises Regular (b.apply sorter evaluate slots) := by
  cases b with
  | maxBy | minBy | dedupBy => exact Function.byKey_regular evaluates _ _ (fun items keys => Raises.ok _) h
  | sortBy =>
    exact Function.byKey_regular evaluates _ _ (fun _ _ => Function.sortedArray_regular _) h
  | map => exact Function.map_regular evaluates h
  | shuffle => exact Function.shuffle_regular h
  | length => exact .ofExcept (Function.length_regular h)
  | startsWith => exact .ofExcept (Function.startsWith_regular h)
  | endsWith => exact .ofExcept (Function.endsWith_regular h)
  | abs | ceil | floor => exact .ofExcept (Function.unary_regular _ _ h)
  | avg => exact .ofExcept (Function.avg_regular h)
  | sum => exact .ofExcept (Function.sum_regular h)
  | max | min => exact .ofExcept (Function.extremum_regular _ _ h)
  | sort => exact .ofExcept (Function.sort_regular sorter h)
  | dedup => exact .ofExcept (Function.dedup_regular h)
  | contains => exact .ofExcept (Function.contains_regular h)
  | containsAny => exact .ofExcept (Function.containsAny_regular h)
  | merge => exact .ofExcept (Function.merge_regular slots)
  | zip | notNull => exact .ofExcept trivial
  | keys => exact .ofExcept (Function.keys_regular h)
  | values => exact .ofExcept (Function.values_regular h)
  | items => exact .ofExcept (Function.items_regular h)
  | get => exact .ofExcept (Function.get_regular h)
  | slice => exact .ofExcept (Function.slice_regular slots)
  | join => exact .ofExcept (Function.join_regular h)
  | reverse => exact .ofExcept (Function.reverse_regular h)
  | toArray => exact .ofExcept (Function.toArray_regular h)
  | fromItems => exact .ofExcept (Function.fromItems_regular h)
  | toString => exact .ofExcept (Function.toString_regular h)
  | toNumber => exact .ofExcept (Function.toNumber_regular h)
  | type => exact .ofExcept (Function.type_regular h)

end JsonQuery

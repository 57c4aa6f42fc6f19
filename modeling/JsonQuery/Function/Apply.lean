import JsonQuery.Function.ByKey
import JsonQuery.Function.Object

/-!
The built-in functions by name.
-/
namespace JsonQuery.Builtin

def plain (sorter : Sorter) (b : Builtin) : List Slot → Except Fault Value :=
  match b with
  | .length => Function.length
  | .startsWith => Function.startsWith
  | .endsWith => Function.endsWith
  | .abs => Function.abs
  | .ceil => Function.ceil
  | .floor => Function.floor
  | .avg => Function.avg
  | .sum => Function.sum
  | .max => Function.max
  | .min => Function.min
  | .sort => Function.sort sorter
  | .dedup => Function.dedup
  | .contains => Function.contains
  | .containsAny => Function.containsAny
  | .merge => Function.merge
  | .zip => Function.zip
  | .keys => Function.keys
  | .values => Function.values
  | .items => Function.items
  | .get => Function.get
  | .slice => Function.slice
  | .join => Function.join
  | .reverse => Function.reverse
  | .toArray => Function.toArray
  | .fromItems => Function.fromItems
  | .toString => Function.toString
  | .toNumber => Function.toNumber
  | .notNull => Function.notNull
  | .type => Function.type
  | .maxBy | .minBy | .sortBy | .dedupBy | .map | .shuffle => fun _ => .error b.misfit

def apply (sorter : Sorter) (evaluate : Function.Evaluate) (b : Builtin) (slots : List Slot) : Eval Value :=
  match b with
  | .maxBy => Function.maxBy evaluate slots
  | .minBy => Function.minBy evaluate slots
  | .sortBy => Function.sortBy sorter evaluate slots
  | .dedupBy => Function.dedupBy evaluate slots
  | .map => Function.map evaluate slots
  | .shuffle => Function.shuffle slots
  | b => Eval.ofExcept (b.plain sorter slots)

theorem apply_of_plain {b : Builtin} (plain : b.needsContext = false) (sorter : Sorter)
    (evaluate : Function.Evaluate) (slots : List Slot) :
    b.apply sorter evaluate slots = Eval.ofExcept (b.plain sorter slots) := by
  cases b with
  | maxBy | minBy | sortBy | dedupBy | map | shuffle => cases plain
  | _ => rfl

end JsonQuery.Builtin

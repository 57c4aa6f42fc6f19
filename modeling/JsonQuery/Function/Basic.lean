import JsonQuery.Signature

/-!
The built-in functions: their names and their parameters.
-/
namespace JsonQuery

inductive Builtin where
  | length
  | startsWith
  | endsWith
  | abs
  | ceil
  | floor
  | avg
  | sum
  | max
  | min
  | maxBy
  | minBy
  | sortBy
  | dedupBy
  | map
  | sort
  | dedup
  | contains
  | containsAny
  | merge
  | zip
  | keys
  | values
  | items
  | get
  | shuffle
  | slice
  | join
  | reverse
  | toArray
  | fromItems
  | toString
  | toNumber
  | notNull
  | type
  deriving DecidableEq

namespace Builtin

def name : Builtin → String
  | .length => "length"
  | .startsWith => "starts_with"
  | .endsWith => "ends_with"
  | .abs => "abs"
  | .ceil => "ceil"
  | .floor => "floor"
  | .avg => "avg"
  | .sum => "sum"
  | .max => "max"
  | .min => "min"
  | .maxBy => "max_by"
  | .minBy => "min_by"
  | .sortBy => "sort_by"
  | .dedupBy => "dedup_by"
  | .map => "map"
  | .sort => "sort"
  | .dedup => "dedup"
  | .contains => "contains"
  | .containsAny => "contains_any"
  | .merge => "merge"
  | .zip => "zip"
  | .keys => "keys"
  | .values => "values"
  | .items => "items"
  | .get => "get"
  | .shuffle => "shuffle"
  | .slice => "slice"
  | .join => "join"
  | .reverse => "reverse"
  | .toArray => "to_array"
  | .fromItems => "from_items"
  | .toString => "to_string"
  | .toNumber => "to_number"
  | .notNull => "not_null"
  | .type => "type"

def all : List Builtin :=
  [.length, .startsWith, .endsWith, .abs, .ceil, .floor, .avg, .sum, .max, .min, .maxBy, .minBy,
    .sortBy, .dedupBy, .map, .sort, .dedup, .contains, .containsAny, .merge, .zip, .keys, .values,
    .items, .get, .shuffle, .slice, .join, .reverse, .toArray, .fromItems, .toString, .toNumber,
    .notNull, .type]

def ofName? (name : String) : Option Builtin := all.find? (·.name == name)

@[simp] theorem ofName?_name (b : Builtin) : ofName? b.name = some b := by cases b <;> decide

/-- What the function takes, an alternative before another being tried first. -/
def parameters : Builtin → List Parameter
  | .length => [.of [.string, .array, .object]]
  | .startsWith | .endsWith => [.of [.string], .of [.string]]
  | .abs | .ceil | .floor => [.of [.number]]
  | .avg | .sum => [.of [.numbers]]
  | .max | .min => [.of [.numbers, .strings]]
  | .maxBy | .minBy | .sortBy | .dedupBy => [.of [.array], .of [.reference]]
  | .map => [.of [.reference], .of [.array]]
  | .sort | .dedup => [.of [.strings, .numbers]]
  | .contains | .containsAny => [.of [.array, .string], .of [.any]]
  | .merge => [.rest [.object]]
  | .zip => [.rest [.array]]
  | .keys | .values | .items => [.of [.object]]
  | .get => [.of [.object], .of [.string]]
  | .shuffle => [.of [.array]]
  | .slice => [.of [.array], .rest [.number]]
  | .join => [.of [.string], .of [.strings]]
  | .reverse => [.of [.array, .string]]
  | .toArray | .toString | .toNumber | .type => [.of [.any]]
  | .fromItems => [.of [.array]]
  | .notNull => [.rest [.any]]

def needsContext : Builtin → Bool
  | .maxBy | .minBy | .sortBy | .dedupBy | .map | .shuffle => true
  | _ => false

/-- The failure of a function whose slots do not have the shape of its parameters. -/
def misfit (b : Builtin) : Fault := .type (.slots b.name)

end Builtin

end JsonQuery

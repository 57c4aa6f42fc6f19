import JsonQuery.Text.Basic
import JsonQuery.Value.Equality
import JsonQuery.Value.Json

/-!
Best-effort readings of values as numbers, booleans and texts, and operations that take a value for a
container. The `OrZero` family never fails: what cannot be read gives the zero of its type.
-/
namespace JsonQuery.Value

def toDouble? (v : Value) : Option Double := v.number?.bind Number.toDouble?

/-- The number that arithmetic and ordering take: that of a number, of a text that reads as one, or
of a truth value. -/
def coerce? : Value → Option Double
  | .number n => n.toDouble?
  | .string s => Double.read? (Text.trim s.toList)
  | .bool b => some (.ofNat (if b then 1 else 0))
  | _ => none

def doubleOrZero (v : Value) : Double := v.coerce?.getD (.zero false)

/-- A text is read as an integer before it is read as a double. -/
def int64OrZero (v : Value) : Int64 :=
  let whole : Option Int64 := match v with
    | .string s => (readInt64? (Text.trim s.toList)).map Int64.ofInt
    | _ => none
  (whole.or (v.coerce?.map Double.toInt64)).getD 0

def trueTexts : List String := ["1", "t", "T", "true", "TRUE", "True"]

def boolOrFalse : Value → Bool
  | .bool b => b
  | .number n => n.toDouble?.any fun d => !d.same (.zero false)
  | .string s => trueTexts.contains s
  | _ => false

def textOrEmpty : Value → String
  | .string s => s
  | .null | .reference .. => ""
  | .bool b => toString b
  | .number n => String.ofList n.display
  | v =>
    match v.text with
    | .ok s => s
    | .error _ => ""

/-- Characters of a text, elements of a sequence, members of an object or fields of a record. -/
def length : Value → Nat
  | .string s => s.toList.length
  | .array items => items.length
  | .object members => members.length
  | .record r =>
    match r.elements with
    | some items => items.length
    | none => r.fields.length
  | _ => 0

/-- The element at a place, or null beyond them; of a text the character, or the empty text. -/
def index (i : Nat) : Value → Value
  | .string s => .string (String.ofList (s.toList[i]?).toList)
  | v => ((v.sequence?.getD [])[i]?).getD .null

/-- Elements, or characters of a text, from `start` up to but not including `stop`. -/
def cut (start stop : Nat) : Value → Value
  | .string s => .string (String.ofList ((s.toList.take stop).drop start))
  | v => .array (((v.sequence?.getD []).take stop).drop start)

/-- A record contains the names of its fields, an object its keys, a text the texts in it, and an
array its items. -/
def contains (v w : Value) : Bool :=
  match v with
  | .record r => r.fields.any (·.name == w.textOrEmpty)
  | .object members =>
    match w with
    | .string key => (Keyed.get? key members).isSome
    | .number n => n.isInteger && (Keyed.get? (String.ofList n.display) members).isSome
    | _ => false
  | .string s => Text.contains w.textOrEmpty.toList s.toList
  | .array items => items.any (·.same w)
  | _ => false

end JsonQuery.Value

import JsonQuery.Value.Basic

/-!
Equality of values: arrays item by item, objects key by key in any order, numbers by value. A
reference and a record equal only themselves.
-/
namespace JsonQuery.Value

mutual

def same : Value → Value → Bool
  | .null, .null => true
  | .bool a, .bool b => a == b
  | .number m, .number n => m.same n
  | .string s, .string t => s == t
  | .array xs, .array ys => sameItems xs ys
  | .object ms, .object ns => ms.length == ns.length && sameMembers ms ns
  | .reference i _, .reference j _ => i == j
  | .record r, .record s => r.identity == s.identity
  | _, _ => false

def sameItems : List Value → List Value → Bool
  | [], [] => true
  | x :: xs, y :: ys => x.same y && sameItems xs ys
  | _, _ => false

def sameMembers : List (String × Value) → List (String × Value) → Bool
  | [], _ => true
  | (key, value) :: rest, others =>
    (match Keyed.get? key others with
      | some other => value.same other
      | none => false) && sameMembers rest others

end

end JsonQuery.Value

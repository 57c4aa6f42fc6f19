import JsonQuery.Value.Basic

/-!
Identities that occur in values.
-/
namespace JsonQuery

def Identity.bound : Identity → Nat
  | .given _ => 0
  | .made n => n + 1

namespace Value

mutual

/-- A number above all made identities in a value. -/
def identityBound : Value → Nat
  | .array items => itemsBound items
  | .object members => membersBound members
  | .reference identity _ => identity.bound
  | .record ⟨identity, _, fields, none⟩ => max identity.bound (fieldsBound fields)
  | .record ⟨identity, _, fields, some items⟩ =>
    max identity.bound (max (fieldsBound fields) (itemsBound items))
  | _ => 0

def itemsBound : List Value → Nat
  | [] => 0
  | item :: rest => max item.identityBound (itemsBound rest)

def membersBound : List (String × Value) → Nat
  | [] => 0
  | (_, value) :: rest => max value.identityBound (membersBound rest)

def fieldsBound : List (Field Value) → Nat
  | [] => 0
  | ⟨_, _, value⟩ :: rest => max value.identityBound (fieldsBound rest)

end

end Value

end JsonQuery

/-!
Records: values of a host program that are neither arrays nor objects. A record has named fields,
and one that is also a sequence has elements.
-/
namespace JsonQuery

/-- What tells two records or two references apart that look alike. Those that come with the data
have identities given to them, those that come up during an evaluation have ones made there. -/
inductive Identity where
  | given (n : Nat)
  | made (n : Nat)
  deriving DecidableEq

structure Field (α : Type) where
  name : String
  /-- The name under which the field is written, if the host declares one. -/
  tag : Option String
  value : α

def Field.writtenName {α : Type} (f : Field α) : String := f.tag.getD f.name

structure Record (α : Type) where
  identity : Identity
  typeName : String
  fields : List (Field α)
  elements : Option (List α)

end JsonQuery

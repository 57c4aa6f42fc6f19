import JsonQuery.Text.Capital
import JsonQuery.Value.Basic

/-!
Which field of a record a key stands for.
-/
namespace JsonQuery

/-- The value of the field that a key stands for. -/
abbrev Resolver := String → Record Value → Option Value

namespace Resolver

def exact : Resolver := fun name r => (r.fields.find? (·.name == name)).map Field.value

/-- The name of the first field tagged with the key, else the key with a capital; then the first
field of that name. -/
def byTag : Resolver := fun key r =>
  let name := match r.fields.find? (·.tag == some key) with
    | some f => f.name
    | none => Text.capitalize key
  exact name r

end Resolver

end JsonQuery

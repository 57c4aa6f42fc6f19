import JsonQuery.Function.Basic
import JsonQuery.Text.Basic
import JsonQuery.Value.Json

/-!
Functions on texts.
-/
namespace JsonQuery.Function

def canonicalText : Value → Except Fault String
  | .string s => .ok s
  | v => v.text

def startsWith : List Slot → Except Fault Value
  | [.string subject, .string start] => .ok (.bool (start.toList.isPrefixOf subject.toList))
  | _ => .error Builtin.startsWith.misfit

def endsWith : List Slot → Except Fault Value
  | [.string subject, .string ending] => .ok (.bool (Text.endsWith ending.toList subject.toList))
  | _ => .error Builtin.endsWith.misfit

def join : List Slot → Except Fault Value
  | [.string separator, .strings parts] => .ok (.string (separator.intercalate parts))
  | _ => .error Builtin.join.misfit

def toString : List Slot → Except Fault Value
  | [.any v] => (canonicalText v).map .string
  | _ => .error Builtin.toString.misfit

end JsonQuery.Function

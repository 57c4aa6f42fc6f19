import JsonQuery.Value.Basic

/-!
Values as messages show them: almost JSON, with number tokens as they were given, and with names for
references and records.
-/
namespace JsonQuery

def Text.shownEscape? : Char → Option Char
  | '"' => some '"'
  | '\\' => some '\\'
  | '\n' => some 'n'
  | '\r' => some 'r'
  | '\t' => some 't'
  | _ => none

namespace Value

def displayString (s : String) : List Char :=
  '"' :: Text.escapeWith Text.shownEscape? s.toList ++ ['"']

mutual

def displayChars : Value → List Char
  | .null => "null".toList
  | .bool true => "true".toList
  | .bool false => "false".toList
  | .number n => n.display
  | .string s => displayString s
  | .array items => '[' :: displayItems items ++ [']']
  | .object members => '\x7b' :: displayMembers members ++ ['\x7d']
  | .reference .. => "\"<expref>\"".toList
  | .record r => "\"<record:".toList ++ r.typeName.toList ++ ">\"".toList

def displayItems : List Value → List Char
  | [] => []
  | [item] => item.displayChars
  | item :: rest => item.displayChars ++ ',' :: displayItems rest

def displayMembers : List (String × Value) → List Char
  | [] => []
  | [(key, value)] => displayString key ++ ':' :: value.displayChars
  | (key, value) :: rest =>
    displayString key ++ ':' :: value.displayChars ++ ',' :: displayMembers rest

end

def display (v : Value) : String := String.ofList v.displayChars

end Value

end JsonQuery

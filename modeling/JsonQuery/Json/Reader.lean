import JsonQuery.Json.Token

/-!
From tokens to a JSON value, with the containers still open on a stack.
-/
namespace JsonQuery.Json

/-- An open container, its contents in reverse; in an object, the key whose value comes next. -/
inductive Frame where
  | array (items : List Json)
  | object (members : List (Quoted × Json)) (key : Quoted)

/-- What may come next. -/
inductive Reader where
  | value (stack : List Frame)
  | firstItem (stack : List Frame)
  | firstKey (stack : List Frame)
  | key (stack : List Frame) (members : List (Quoted × Json))
  | colon (stack : List Frame) (members : List (Quoted × Json)) (key : Quoted)
  /-- A comma or the end of a container; at the bottom of the stack nothing. -/
  | after (stack : List Frame) (value : Json)

namespace Reader

def start : Reader := .value []

def beginValue? (stack : List Frame) : Token → Option Reader
  | .null => some (.after stack .null)
  | .bool b => some (.after stack (.bool b))
  | .number n => some (.after stack (.number n))
  | .string s => some (.after stack (.string s))
  | .openArray => some (.firstItem stack)
  | .openObject => some (.firstKey stack)
  | _ => none

def step? : Reader → Token → Option Reader
  | .value stack, t => beginValue? stack t
  | .firstItem stack, .closeArray => some (.after stack (.array []))
  | .firstItem stack, t => beginValue? (.array [] :: stack) t
  | .firstKey stack, .closeObject => some (.after stack (.object []))
  | .firstKey stack, .string k => some (.colon stack [] k)
  | .key stack members, .string k => some (.colon stack members k)
  | .colon stack members k, .colon => some (.value (.object members k :: stack))
  | .after (.array items :: stack) v, .comma => some (.value (.array (v :: items) :: stack))
  | .after (.array items :: stack) v, .closeArray =>
    some (.after stack (.array (v :: items).reverse))
  | .after (.object members k :: stack) v, .comma => some (.key stack ((k, v) :: members))
  | .after (.object members k :: stack) v, .closeObject =>
    some (.after stack (.object ((k, v) :: members).reverse))
  | _, _ => none

def result? : Reader → Option Json
  | .after [] v => some v
  | _ => none

end Reader

def ofTokens? (tokens : List Token) : Option Json :=
  (tokens.foldlM Reader.step? Reader.start).bind Reader.result?

def read? (text : String) : Option Json := (Token.scan? text.toList).bind ofTokens?

end JsonQuery.Json

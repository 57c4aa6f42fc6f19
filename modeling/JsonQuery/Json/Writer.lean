import JsonQuery.Json.Token

/-!
Writing JSON: compact, without any white space, or with every item on a line of its own.
-/
namespace JsonQuery.Json

mutual

def tokens : Json → List Token
  | .null => [.null]
  | .bool b => [.bool b]
  | .number n => [.number n]
  | .string s => [.string s]
  | .array items => .openArray :: itemTokens items ++ [.closeArray]
  | .object members => .openObject :: memberTokens members ++ [.closeObject]

def itemTokens : List Json → List Token
  | [] => []
  | [item] => item.tokens
  | item :: rest => item.tokens ++ .comma :: itemTokens rest

def memberTokens : List (Quoted × Json) → List Token
  | [] => []
  | [(key, value)] => .string key :: .colon :: value.tokens
  | (key, value) :: rest => .string key :: .colon :: value.tokens ++ .comma :: memberTokens rest

end

def compact (j : Json) : String := String.ofList (j.tokens.flatMap Token.text)

def newLine (level : Nat) : List Char := '\n' :: List.replicate (2 * level) ' '

/-- The text of tokens with every item on a line of its own, inside `level` open containers. -/
def spread : Nat → List Token → List Char
  | _, [] => []
  | level, .openArray :: .closeArray :: rest => '[' :: ']' :: spread level rest
  | level, .openObject :: .closeObject :: rest => '\x7b' :: '\x7d' :: spread level rest
  | level, .openArray :: rest => '[' :: newLine (level + 1) ++ spread (level + 1) rest
  | level, .openObject :: rest => '\x7b' :: newLine (level + 1) ++ spread (level + 1) rest
  | level, .closeArray :: rest => newLine (level - 1) ++ ']' :: spread (level - 1) rest
  | level, .closeObject :: rest => newLine (level - 1) ++ '\x7d' :: spread (level - 1) rest
  | level, .comma :: rest => ',' :: newLine level ++ spread level rest
  | level, .colon :: rest => ':' :: ' ' :: spread level rest
  | level, token :: rest => token.text ++ spread level rest

def pretty (j : Json) : String := String.ofList (spread 0 j.tokens)

end JsonQuery.Json

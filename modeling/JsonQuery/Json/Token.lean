import JsonQuery.Json.Basic

/-!
Tokens of JSON text. A text is cut in one pass: brackets, commas and colons are tokens by
themselves, a string reaches to the next quote without a backslash, and every other run of
characters is one word.
-/
namespace JsonQuery.Json

inductive Token where
  | openArray
  | closeArray
  | openObject
  | closeObject
  | comma
  | colon
  | null
  | bool (b : Bool)
  | number (n : Numeral)
  | string (s : Quoted)
  deriving DecidableEq

namespace Token

def text : Token → List Char
  | .openArray => ['[']
  | .closeArray => [']']
  | .openObject => ['\x7b']
  | .closeObject => ['\x7d']
  | .comma => [',']
  | .colon => [':']
  | .null => "null".toList
  | .bool true => "true".toList
  | .bool false => "false".toList
  | .number n => n.text
  | .string s => '"' :: s.body ++ ['"']

def ofMark? : Char → Option Token
  | '[' => some .openArray
  | ']' => some .closeArray
  | '\x7b' => some .openObject
  | '\x7d' => some .closeObject
  | ',' => some .comma
  | ':' => some .colon
  | _ => none

def ofWord? (word : List Char) : Option Token :=
  if word = "null".toList then some .null
  else if word = "true".toList then some (.bool true)
  else if word = "false".toList then some (.bool false)
  else (Numeral.read? word).map .number

/-- White space between tokens: only these four characters. -/
def isSpace (c : Char) : Bool := c == ' ' || c == '\t' || c == '\n' || c == '\r'

/-- What the characters since the last token are part of; they are kept in reverse. -/
inductive Pending where
  | nothing
  | word (reversed : List Char)
  | quoted (reversed : List Char)
  | escaped (reversed : List Char)

structure Lexer where
  tokens : List Token
  pending : Pending

namespace Lexer

def start : Lexer := ⟨[], .nothing⟩

/-- Ends a word, which stops before a mark, a quote or white space. -/
def endWord? (l : Lexer) : Option (List Token) :=
  match l.pending with
  | .nothing => some l.tokens
  | .word reversed => (ofWord? reversed.reverse).map (· :: l.tokens)
  | _ => none

def step? (l : Lexer) (c : Char) : Option Lexer :=
  match l.pending with
  | .escaped reversed => some ⟨l.tokens, .quoted (c :: reversed)⟩
  | .quoted reversed =>
    if c = '\\' then some ⟨l.tokens, .escaped (c :: reversed)⟩
    else if c = '"' then
      if Text.isBody reversed.reverse then
        some ⟨.string ⟨reversed.reverse⟩ :: l.tokens, .nothing⟩
      else none
    else some ⟨l.tokens, .quoted (c :: reversed)⟩
  | _ =>
    if c = '"' then l.endWord?.map (⟨·, .quoted []⟩)
    else if isSpace c then l.endWord?.map (⟨·, .nothing⟩)
    else
      match ofMark? c with
      | some mark => l.endWord?.map fun tokens => ⟨mark :: tokens, .nothing⟩
      | none =>
        match l.pending with
        | .word reversed => some ⟨l.tokens, .word (c :: reversed)⟩
        | _ => some ⟨l.tokens, .word [c]⟩

end Lexer

def scan? (cs : List Char) : Option (List Token) :=
  (cs.foldlM Lexer.step? Lexer.start).bind fun l => l.endWord?.map List.reverse

end Token

end JsonQuery.Json

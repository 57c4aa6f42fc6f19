/-!
What stands between the quotes of a JSON string. `escape` writes a text so that it can stand there,
`unescape?` reads it back. Reading goes by way of pieces, because an escape of four hexadecimal
digits may be only one half of a character.
-/
namespace JsonQuery.Text

/-- A character that stands for itself or has an escape of one letter, or a unit of 16 bits. -/
inductive Piece where
  | char (c : Char)
  | unit (n : Nat)
  deriving DecidableEq

def shortEscape? : Char → Option Char
  | '"' => some '"'
  | '\\' => some '\\'
  | '\x08' => some 'b'
  | '\x0c' => some 'f'
  | '\n' => some 'n'
  | '\r' => some 'r'
  | '\t' => some 't'
  | _ => none

def ofShortEscape? : Char → Option Char
  | '"' => some '"'
  | '\\' => some '\\'
  | '/' => some '/'
  | 'b' => some '\x08'
  | 'f' => some '\x0c'
  | 'n' => some '\n'
  | 'r' => some '\r'
  | 't' => some '\t'
  | _ => none

/-- A backslash and a letter where `short` has one, four hexadecimal digits for the other control
characters, and the character itself otherwise. -/
def escapeChar (short : Char → Option Char) (c : Char) : List Char :=
  match short c with
  | some letter => ['\\', letter]
  | none =>
    if c.toNat < 0x20 then
      ['\\', 'u', '0', '0', Nat.digitChar (c.toNat / 16), Nat.digitChar (c.toNat % 16)]
    else [c]

def escapeWith (short : Char → Option Char) (cs : List Char) : List Char :=
  cs.flatMap (escapeChar short)

def escape (cs : List Char) : List Char := escapeWith shortEscape? cs

def hexValue? (c : Char) : Option Nat :=
  if '0' ≤ c ∧ c ≤ '9' then some (c.toNat - '0'.toNat)
  else if 'a' ≤ c ∧ c ≤ 'f' then some (c.toNat - 'a'.toNat + 10)
  else if 'A' ≤ c ∧ c ≤ 'F' then some (c.toNat - 'A'.toNat + 10)
  else none

/-- Reads the escapes; refuses unknown ones, bare quotes and bare control characters. -/
def pieces? : List Char → Option (List Piece)
  | [] => some []
  | '\\' :: 'u' :: a :: b :: c :: d :: rest =>
    match hexValue? a, hexValue? b, hexValue? c, hexValue? d with
    | some a, some b, some c, some d =>
      (pieces? rest).map (.unit (((a * 16 + b) * 16 + c) * 16 + d) :: ·)
    | _, _, _, _ => none
  | '\\' :: letter :: rest =>
    match ofShortEscape? letter with
    | some c => (pieces? rest).map (.char c :: ·)
    | none => none
  | c :: rest =>
    if c = '"' ∨ c = '\\' ∨ c.toNat < 0x20 then none else (pieces? rest).map (.char c :: ·)

def isHighHalf (n : Nat) : Bool := 0xD800 ≤ n && n < 0xDC00

def isLowHalf (n : Nat) : Bool := 0xDC00 ≤ n && n < 0xE000

/-- Puts the halves of characters together; a half without the other is refused. -/
def joinPieces? : List Piece → Option (List Char)
  | [] => some []
  | .char c :: rest => (joinPieces? rest).map (c :: ·)
  | .unit high :: .unit low :: rest =>
    if isHighHalf high then
      if isLowHalf low then
        (joinPieces? rest).map
          (Char.ofNat (0x10000 + (high - 0xD800) * 0x400 + (low - 0xDC00)) :: ·)
      else none
    else if isLowHalf high then none
    else (joinPieces? (.unit low :: rest)).map (Char.ofNat high :: ·)
  | .unit n :: rest =>
    if isHighHalf n || isLowHalf n then none else (joinPieces? rest).map (Char.ofNat n :: ·)

def unescape? (cs : List Char) : Option (List Char) := (pieces? cs).bind joinPieces?

/-- Whether the escapes are well formed, possibly with a half of a character among them. -/
def isBody (cs : List Char) : Bool := (pieces? cs).isSome

end JsonQuery.Text

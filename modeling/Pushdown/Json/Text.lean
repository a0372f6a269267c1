import Pushdown.Text.Bytes
import Pushdown.Text.Quoted

/-!
# Strings of a document

A string stands between double quotes, and a backslash starts an escape. Characters outside the
basic plane may be written as two escaped halves; a half without its partner reads as the
replacement character.

`stringBody?` reads what `writeString` writes, and also the escapes that it never uses.
-/

namespace Pushdown.Json

/-- White space between the tokens of a document. -/
def isSpace (c : Char) : Bool := c == ' ' || c == '\t' || c == '\n' || c == '\r'

def skipSpace (cs : List Char) : List Char := cs.dropWhile isSpace

/-- A character of a string, or an escaped code that may be half of one. -/
inductive Piece where
  | char (c : Char)
  | code (n : Nat)

/-- The character that a backslash and this letter stand for. -/
def escaped? : Char → Option Char
  | '"' => some '"'
  | '\\' => some '\\'
  | '/' => some '/'
  | 'b' => some (Char.ofNat 0x08)
  | 'f' => some (Char.ofNat 0x0C)
  | 'n' => some '\n'
  | 'r' => some '\r'
  | 't' => some '\t'
  | _ => none

/-- The value of a hexadecimal digit. -/
def hexValue? (c : Char) : Option Nat :=
  let n := c.toNat
  if c.isDigit then some (n - '0'.toNat)
  else if 'a'.toNat ≤ n ∧ n ≤ 'f'.toNat then some (n - 'a'.toNat + 10)
  else if 'A'.toNat ≤ n ∧ n ≤ 'F'.toNat then some (n - 'A'.toNat + 10)
  else none

/-- The pieces up to the closing quote, and what follows it. -/
def pieces? : List Char → Option (List Piece × List Char)
  | [] => none
  | '"' :: rest => some ([], rest)
  | '\\' :: 'u' :: a :: b :: c :: d :: rest => do
    let high := (← hexValue? a) * 16 + (← hexValue? b)
    let code := (high * 16 + (← hexValue? c)) * 16 + (← hexValue? d)
    let (more, rest) ← pieces? rest
    some (.code code :: more, rest)
  | '\\' :: letter :: rest => do
    let c ← escaped? letter
    let (more, rest) ← pieces? rest
    some (.char c :: more, rest)
  | c :: rest => do
    let (more, rest) ← pieces? rest
    some (.char c :: more, rest)

def isHighHalf (n : Nat) : Bool := 0xD800 ≤ n && n < 0xDC00

def isLowHalf (n : Nat) : Bool := 0xDC00 ≤ n && n < 0xE000

/-- The character of a code that is not part of a pair. -/
def single (n : Nat) : Char :=
  if isHighHalf n || isLowHalf n then Text.replacement else Char.ofNat n

/-- The character of two halves. -/
def pair? (n m : Nat) : Option Char :=
  if isHighHalf n && isLowHalf m then
    some (Char.ofNat (0x10000 + (n - 0xD800) * 0x400 + (m - 0xDC00)))
  else none

/-- The characters of the pieces, where two halves next to each other are one character. -/
def assemble : List Piece → List Char
  | [] => []
  | .char c :: rest => c :: assemble rest
  | .code n :: .code m :: rest =>
    match pair? n m with
    | some c => c :: assemble rest
    | none => single n :: assemble (.code m :: rest)
  | .code n :: rest => single n :: assemble rest

/-- A string from behind its opening quote, and what follows it. -/
def stringBody? (cs : List Char) : Option (String × List Char) :=
  (pieces? cs).map fun (pieces, rest) => (String.ofList (assemble pieces), rest)

/-- A text that is a string and nothing else. -/
def string? : List Char → Option String
  | '"' :: rest =>
    match stringBody? rest with
    | some (s, []) => some s
    | _ => none
  | _ => none

/-- The characters that are written as a code: control characters, those with a meaning in
markup, and the two line separators that some readers take for the end of a line. -/
def needsCode (c : Char) : Bool :=
  c.toNat < 0x20 || c == '<' || c == '>' || c == '&' || c.toNat == 0x2028 || c.toNat == 0x2029

/-- How one character of a string is written. -/
def writeChar (c : Char) : List Char :=
  match c with
  | '"' => ['\\', '"']
  | '\\' => ['\\', '\\']
  | '\n' => ['\\', 'n']
  | '\r' => ['\\', 'r']
  | '\t' => ['\\', 't']
  | c =>
    if needsCode c then '\\' :: 'u' :: Text.hexDigits 4 c.toNat
    else [c]

/-- A string between its quotes. -/
def writeString (s : String) : String :=
  String.ofList ('"' :: s.toList.flatMap writeChar ++ ['"'])

end Pushdown.Json

import Pushdown.Text.PrintableTable

/-!
# Quoted text in messages

Messages show a text between double quotes with everything that is not printable written as
an escape, so that a message is one line and shows exactly which characters it is about.
-/

namespace Pushdown.Text

/-- Whether a character is shown as it is. -/
def isPrintable (c : Char) : Bool :=
  let n := c.toNat
  if n < 0x80 then 0x20 ≤ n && n < 0x7F
  else printableRanges.any fun range => range.1 ≤ n && n ≤ range.2

/-- The hexadecimal digit with value `d`. -/
def hexDigit (d : Nat) : Char :=
  if d < 10 then Char.ofNat ('0'.toNat + d) else Char.ofNat ('a'.toNat + (d - 10))

/-- The last `width` hexadecimal digits of `n`. -/
def hexDigits : (width n : Nat) → List Char
  | 0, _ => []
  | width + 1, n => hexDigits width (n / 16) ++ [hexDigit (n % 16)]

/-- The code of a character behind a backslash. -/
def codeEscape (c : Char) : List Char :=
  match c.toNat with
  | 0x07 => ['\\', 'a']
  | 0x08 => ['\\', 'b']
  | 0x09 => ['\\', 't']
  | 0x0A => ['\\', 'n']
  | 0x0B => ['\\', 'v']
  | 0x0C => ['\\', 'f']
  | 0x0D => ['\\', 'r']
  | n =>
    if n < 0x80 then '\\' :: 'x' :: hexDigits 2 n
    else if n < 0x10000 then '\\' :: 'u' :: hexDigits 4 n
    else '\\' :: 'U' :: hexDigits 8 n

/-- How one character is written between the quotes, where `isKept` says which stay. -/
def escapeChar (isKept : Char → Bool) (c : Char) : List Char :=
  if c == '"' || c == '\\' then ['\\', c]
  else if isKept c then [c]
  else codeEscape c

/-- The text between double quotes, with escapes for what is not kept. -/
def quotedBy (isKept : Char → Bool) (cs : List Char) : List Char :=
  '"' :: cs.flatMap (escapeChar isKept) ++ ['"']

/-- The text between double quotes, with escapes for what cannot be printed. -/
def quoted (s : String) : String := String.ofList (quotedBy isPrintable s.toList)

end Pushdown.Text

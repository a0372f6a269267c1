import Pushdown.Settings.Yaml.Cursor
import Pushdown.Text.Number

/-!
# Scalars that are folded

The texts of plain scalars and of scalars between quotes. They may go over several lines: a line
end between two words counts as a space, and of several line ends in a row the first is dropped.
Blanks around line ends do not count.
-/

namespace Pushdown.Yaml

/-- What stands between two words of a scalar. -/
inductive Gap where
  /-- Blanks on one line, of which there may be none. -/
  | blanks (chars : List Char)
  /-- Line ends: the first one, unless a backslash hides it, and those behind it. -/
  | breaks (first : Option Char) (more : List Char)

namespace Gap

def isEmpty : Gap → Bool
  | blanks chars => chars.isEmpty
  | breaks _ _ => false

def isBreaks : Gap → Bool
  | blanks _ => false
  | breaks _ _ => true

/-- The gap with one more blank, which does not count behind a line end. -/
def withBlank (c : Char) : Gap → Gap
  | blanks chars => blanks (chars ++ [c])
  | breaks first more => breaks first more

/-- The gap with one more line end. -/
def withBreak (c : Char) : Gap → Gap
  | blanks _ => breaks (some (breakText c)) []
  | breaks first more => breaks first (more ++ [breakText c])

/-- The text that a gap counts as. -/
def text : Gap → List Char
  | blanks chars => chars
  | breaks none more => more
  | breaks (some first) more =>
    if first != '\n' then first :: more
    else if more.isEmpty then [' ']
    else more

end Gap

/-- The text of a scalar, and the place behind it. -/
abbrev Scanned := Option (List Char × Cursor)

/-- Put characters in front of a text. -/
def prepend (front : List Char) (scanned : Scanned) : Scanned :=
  scanned.map fun (text, cursor) => (front ++ text, cursor)

/-! ## Between quotes -/

/-- The text of a scalar from behind its opening single quote. A quote in it is written twice. -/
def singleQuoted? (line column : Nat) (gap : Gap) : List Char → Scanned
  | [] => none
  | '\'' :: '\'' :: rest =>
    prepend (gap.text ++ ['\'']) (singleQuoted? line (column + 2) (.blanks []) rest)
  | '\'' :: rest => some (gap.text, ⟨rest, line, column + 1⟩)
  | c :: rest =>
    if isBlank c then singleQuoted? line (column + 1) (gap.withBlank c) rest
    else if isBreak c then singleQuoted? (line + 1) 0 (gap.withBreak c) rest
    else if column == 0 && startsWithMarker (c :: rest) then none
    else prepend (gap.text ++ [c]) (singleQuoted? line (column + 1) (.blanks []) rest)

/-- The character that a backslash and this letter stand for. -/
def escaped? (c : Char) : Option Char :=
  [('0', 0x00), ('a', 0x07), ('b', 0x08), ('t', 0x09), ('\t', 0x09), ('n', 0x0A), ('v', 0x0B),
    ('f', 0x0C), ('r', 0x0D), ('e', 0x1B), (' ', 0x20), ('"', 0x22), ('\'', 0x27), ('\\', 0x5C),
    ('N', 0x85), ('_', 0xA0), ('L', 0x2028), ('P', 0x2029)].lookup c |>.map Char.ofNat

/-- The character with a code in hexadecimal digits. -/
def codeChar? (digits : List Char) : Option Char := do
  let n ← Text.readDigits? 16 digits
  if n.isValidChar then some (Char.ofNat n) else none

/-- Put a gap and a character in front of a text, if there is one. -/
def prependChar (gap : Gap) (c : Option Char) (scanned : Scanned) : Scanned := do
  prepend (gap.text ++ [← c]) scanned

/-- The text of a scalar from behind its opening double quote. A backslash takes the place of a
line end, or starts an escape. -/
def doubleQuoted? (line column : Nat) (gap : Gap) : List Char → Scanned
  | [] => none
  | '"' :: rest => some (gap.text, ⟨rest, line, column + 1⟩)
  | '\\' :: 'x' :: a :: b :: rest =>
    prependChar gap (codeChar? [a, b]) (doubleQuoted? line (column + 4) (.blanks []) rest)
  | '\\' :: 'u' :: a :: b :: c :: d :: rest =>
    prependChar gap (codeChar? [a, b, c, d]) (doubleQuoted? line (column + 6) (.blanks []) rest)
  | '\\' :: 'U' :: a :: b :: c :: d :: e :: f :: g :: h :: rest =>
    prependChar gap (codeChar? [a, b, c, d, e, f, g, h])
      (doubleQuoted? line (column + 10) (.blanks []) rest)
  | '\\' :: c :: rest =>
    if isBreak c then prepend gap.text (doubleQuoted? (line + 1) 0 (.breaks none []) rest)
    else prependChar gap (escaped? c) (doubleQuoted? line (column + 2) (.blanks []) rest)
  | c :: rest =>
    if isBlank c then doubleQuoted? line (column + 1) (gap.withBlank c) rest
    else if isBreak c then doubleQuoted? (line + 1) 0 (gap.withBreak c) rest
    else if column == 0 && startsWithMarker (c :: rest) then none
    else prepend (gap.text ++ [c]) (doubleQuoted? line (column + 1) (.blanks []) rest)

/-! ## Without quotes -/

/-- Characters with a meaning of their own between brackets. -/
def isFlowMark (c : Char) : Bool := ",?[]\x7b\x7d".toList.contains c

/-- Whether a plain scalar ends in front of these characters, which are no gap. -/
def endsPlain (inFlow : Bool) (cs : List Char) : Bool :=
  cs.head?.any fun c => (c == ':' && endsWord (cs.drop 1)) || (inFlow && isFlowMark c)

/-- Whether a plain scalar ends in front of what stands behind a gap: a comment, a document mark,
or a line that is not indented far enough. -/
def endsAfterGap (inFlow : Bool) (indent column : Nat) (gap : Gap) (cs : List Char) : Bool :=
  (!gap.isEmpty && cs.head? == some '#') || (column == 0 && startsWithMarker cs) ||
    (gap.isBreaks && !inFlow && column < indent)

/-- The text of a plain scalar, the place behind it and the gap that follows it, and whether
that gap has a line end. A tab cannot indent a line. -/
def plain? (inFlow : Bool) (indent line column : Nat) (gap : Gap) :
    List Char → Option (List Char × Cursor × Bool)
  | [] => some ([], ⟨[], line, column⟩, gap.isBreaks)
  | c :: rest =>
    if isBlank c then
      if gap.isBreaks && c == '\t' && column < indent then none
      else plain? inFlow indent line (column + 1) (gap.withBlank c) rest
    else if isBreak c then plain? inFlow indent (line + 1) 0 (gap.withBreak c) rest
    else if endsAfterGap inFlow indent column gap (c :: rest) || endsPlain inFlow (c :: rest) then
      some ([], ⟨c :: rest, line, column⟩, gap.isBreaks)
    else
      (plain? inFlow indent line (column + 1) (.blanks []) rest).map fun (text, after) =>
        (gap.text ++ c :: text, after)

/-- Whether a plain scalar may start with these characters. -/
def startsPlain (inFlow : Bool) : List Char → Bool
  | [] => false
  | c :: rest =>
    if c == '-' then !rest.head?.any isBlank
    else if c == '?' || c == ':' then !inFlow && !endsWord rest
    else !(isBlank c || isBreak c || isFlowMark c || "#&*!|>'\"%@".toList.contains c ||
      c.toNat == 0x60)

end Pushdown.Yaml

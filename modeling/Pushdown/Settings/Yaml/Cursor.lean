/-!
# Places in a settings file

The characters that a YAML file may hold, the part of a file that can be read, and places in it
with their line and column. A line ends with a line feed, which carriage returns count as, or
with one of the characters for a next line, a line separator and a paragraph separator.
-/

namespace Pushdown.Yaml

def isBlank (c : Char) : Bool := c == ' ' || c == '\t'

def isBreak (c : Char) : Bool :=
  c == '\n' || c.toNat == 0x85 || c.toNat == 0x2028 || c.toNat == 0x2029

/-- The line break that a text keeps of one in a file. -/
def breakText (c : Char) : Char := if c.toNat == 0x85 then '\n' else c

/-- Whether a word is over: nothing follows, or a blank or the end of the line. -/
def endsWord (cs : List Char) : Bool := cs.head?.all fun c => isBlank c || isBreak c

/-- Whether a character may be part of a name. -/
def isNameChar (c : Char) : Bool := c.isAlphanum || c == '_' || c == '-'

/-! ## What can be read -/

/-- The character that may stand in front of a file to tell how it is encoded. -/
def byteOrderMark : Char := Char.ofNat 0xFEFF

/-- Whether a character may stand in a file: control characters may not. -/
def isAllowed (c : Char) : Bool :=
  let n := c.toNat
  n == 0x09 || n == 0x0A || n == 0x0D || (0x20 ≤ n && n ≤ 0x7E) || n == 0x85 ||
    (0xA0 ≤ n && n ≤ 0xFFFD && c != byteOrderMark) || 0x10000 ≤ n

/-- How many bytes of a file are read at a time. -/
def blockSize : Nat := 512

/-- The characters up to the first block that has one which may not be there, and whether there
is no such block. The current block has `room` bytes left, and `block` are its characters so far
in reverse. -/
def readable (room : Nat) (block : List Char) : List Char → List Char × Bool
  | [] => (block.reverse, true)
  | c :: rest =>
    if c.utf8Size ≤ room then
      if isAllowed c then readable (room - c.utf8Size) (c :: block) rest else ([], false)
    else if isAllowed c then
      let (more, isWhole) := readable (blockSize - c.utf8Size) [c] rest
      (block.reverse ++ more, isWhole)
    else (block.reverse, false)

/-- Write every line end with a carriage return as a line feed. -/
def unifyBreaks : List Char → List Char
  | [] => []
  | '\r' :: '\n' :: rest => '\n' :: unifyBreaks rest
  | c :: rest => (if c == '\r' then '\n' else c) :: unifyBreaks rest

/-- The characters of a file that can be read, and whether they are all of it. -/
def contents (text : String) : List Char × Bool :=
  let (cs, isWhole) := match text.toList with
    | [] => ([], true)
    | c :: rest =>
      if c == byteOrderMark then readable (blockSize - c.utf8Size) [] rest
      else readable blockSize [] (c :: rest)
  (unifyBreaks cs, isWhole)

/-! ## Places -/

/-- A place in a file: what is still to be read, and where that starts. -/
structure Cursor where
  rest : List Char
  line : Nat := 0
  column : Nat := 0

namespace Cursor

/-- The place behind some characters of the same line. -/
def skip (c : Cursor) (count : Nat) : Cursor :=
  { c with rest := c.rest.drop count, column := c.column + count }

/-- The place behind all characters with a property, none of which ends a line. -/
def skipWhile (c : Cursor) (p : Char → Bool) : Cursor := c.skip (c.rest.takeWhile p).length

/-- The place at the end of the line. -/
def skipLine (c : Cursor) : Cursor := c.skipWhile (!isBreak ·)

/-- The start of the next line, from the end of a line. -/
def skipBreak (c : Cursor) : Cursor :=
  if c.rest.isEmpty then c else { rest := c.rest.drop 1, line := c.line + 1 }

/-- The place behind blanks and a comment on the same line, if there is a comment. -/
def skipComment (c : Cursor) : Cursor :=
  let next := c.skipWhile isBlank
  if next.rest.head? == some '#' then next.skipLine else c

end Cursor

/-- Whether these characters, which start a line, start or end a document. -/
def startsWithMarker (cs : List Char) : Bool :=
  ("---".toList.isPrefixOf cs || "...".toList.isPrefixOf cs) && endsWord (cs.drop 3)

end Pushdown.Yaml

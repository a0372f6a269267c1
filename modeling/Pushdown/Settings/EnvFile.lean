import Pushdown.Dictionary
import Pushdown.Text.Blank

/-!
# Files of variables

A file of variables has one `NAME=value` on each line, where `export` may stand in front, a value
may be quoted, and `#` starts a comment. A value may refer to the variables above it. A file with
anything else in it counts as empty.
-/

namespace Pushdown.EnvFile

/-- White space within a line. -/
def isSpace (c : Char) : Bool :=
  c == '\t' || c == ' ' || c == '\r' || [0x0B, 0x0C, 0x85, 0xA0].contains c.toNat

def skipSpace (cs : List Char) : List Char := cs.dropWhile isSpace

def trimSpace (cs : List Char) : List Char := Text.trimWhile isSpace cs

/-- Whether a byte outside of ASCII may stand in a name. -/
def isNameByte (b : UInt8) : Bool :=
  (0xC0 ≤ b && b != 0xD7 && b != 0xF7) ||
    [0x85, 0xA0, 0xAA, 0xB2, 0xB3, 0xB5, 0xB9, 0xBA, 0xBC, 0xBD, 0xBE].contains b

/-- Whether a character may stand in a name; others end the reading. -/
def isNameChar (c : Char) : Bool :=
  if c.toNat < 0x80 then c.isAlphanum || c == '_' || c == '.' || isSpace c
  else (String.utf8EncodeChar c).all isNameByte

/-- Drop the word `export` if white space follows it. -/
def dropExport (cs : List Char) : List Char :=
  if "export".toList.isPrefixOf cs && (cs.drop 6).head?.any isSpace then skipSpace (cs.drop 6)
  else cs

/-- A name, up to its equals sign or colon, and what follows. -/
def name? (cs : List Char) : Option (String × List Char) :=
  let cs := dropExport (skipSpace cs)
  let name := cs.takeWhile isNameChar
  match cs.dropWhile isNameChar with
  | [] => if cs.isEmpty then none else some ("", cs)
  | c :: rest =>
    if c == '=' || c == ':' then
      some (String.ofList (Text.trimWhile Text.isBlank name), skipSpace rest)
    else none

/-- The part of a line before the last comment, which white space comes before. -/
def beforeComment (cs : List Char) : List Char :=
  match (cs.zipIdx.filter fun (c, i) => c == '#' && 0 < i && (cs[i - 1]?).any isSpace).getLast? with
  | some (_, i) => cs.take i
  | none => cs

def isVariableChar (c : Char) : Bool := c.isUpper || c.isDigit || c == '_'

/-- The name of a reference behind its dollar sign, and what follows the reference. -/
def reference (cs : List Char) : String × List Char :=
  let afterParen := if cs.head? == some '(' then cs.drop 1 else cs
  let afterBrace := if afterParen.head? == some '\x7b' then afterParen.drop 1 else afterParen
  let name := afterBrace.takeWhile isVariableChar
  let rest := afterBrace.dropWhile isVariableChar
  (String.ofList name, if rest.head? == some '\x7d' then rest.drop 1 else rest)

/-- Put values in place of references. A dollar sign behind a backslash, or without a name, stays
as it is. There are at most `limit` characters. -/
def expand (vars : Dictionary String String) : (limit : Nat) → List Char → List Char
  | 0, cs => cs
  | _, [] => []
  | limit + 1, '\\' :: '$' :: rest =>
    let (_, after) := reference rest
    '$' :: (rest.take (rest.length - after.length) ++ expand vars limit after)
  | limit + 1, '$' :: rest =>
    let (name, after) := reference rest
    if name = "" then '$' :: (rest.take (rest.length - after.length) ++ expand vars limit after)
    else ((vars.get? name).getD "").toList ++ expand vars limit after
  | limit + 1, c :: rest => c :: expand vars limit rest

/-- The escapes of a value between double quotes that stand for line ends. -/
def lineEscapes : List Char → List Char
  | '\\' :: 'n' :: rest => '\n' :: lineEscapes rest
  | '\\' :: 'r' :: rest => '\r' :: lineEscapes rest
  | '\\' :: c :: rest =>
    if c == '\n' then '\\' :: lineEscapes (c :: rest) else '\\' :: c :: lineEscapes rest
  | c :: rest => c :: lineEscapes rest
  | [] => []

/-- Drop the backslash before anything but a dollar sign. -/
def dropBackslashes : List Char → List Char
  | '\\' :: c :: rest =>
    if c == '$' then '\\' :: c :: dropBackslashes rest else c :: dropBackslashes rest
  | c :: rest => c :: dropBackslashes rest
  | [] => []

/-- The characters of a quoted value up to its closing quote, and what follows it. A quote behind a
backslash does not close; `last` is the character before. -/
def quotedValue? (quote last : Char) : List Char → Option (List Char × List Char)
  | [] => none
  | c :: rest =>
    if c == quote && last != '\\' then some ([], rest)
    else (quotedValue? quote c rest).map fun (chars, rest) => (c :: chars, rest)

/-- A value, and what follows it. -/
def value? (vars : Dictionary String String) (cs : List Char) : Option (String × List Char) :=
  match cs with
  | [] => some ("", [])
  | quote :: rest =>
    if quote == '"' || quote == '\'' then do
      let (chars, rest) ← quotedValue? quote quote rest
      let chars := Text.trimWhile (· == quote) chars
      let chars := if quote == '"' then
          let plain := dropBackslashes (lineEscapes chars)
          expand vars plain.length plain
        else chars
      some (String.ofList chars, rest)
    else
      let isLineEnd (c : Char) : Bool := c == '\n' || c == '\r'
      let line := trimSpace (beforeComment (cs.takeWhile (!isLineEnd ·)))
      some (String.ofList (expand vars line.length line), cs.dropWhile (!isLineEnd ·))

/-- The start of the next statement, behind blanks and comments. -/
def nextStatement : (limit : Nat) → List Char → List Char
  | 0, cs => cs
  | limit + 1, cs =>
    match cs.dropWhile Text.isBlank with
    | '#' :: rest => nextStatement limit (rest.dropWhile (· != '\n'))
    | cs => cs

/-- The variables of a file on top of those above. There are at most `limit` statements. -/
def statements? (vars : Dictionary String String) :
    (limit : Nat) → List Char → Option (Dictionary String String)
  | 0, _ => none
  | limit + 1, cs =>
    match nextStatement cs.length cs with
    | [] => some vars
    | cs => do
      let (name, rest) ← name? cs
      let (value, rest) ← value? vars rest
      statements? (vars.insert name value) limit rest

/-- The variables of a file, of which there are none if it cannot be read. -/
def read (text : String) : Dictionary String String :=
  let cs := (text.replace "\r\n" "\n").toList
  (statements? {} (cs.length + 1) cs).getD {}

end Pushdown.EnvFile

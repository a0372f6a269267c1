import Pushdown.Json.Text
import Pushdown.Text.Blank

/-!
# Documents read one level at a time

A container is split into its parts without looking into them: a part is kept as the text it
has in the document, and whether that text makes sense is found out when it is read. A part
that nobody reads only has to end somewhere.
-/

namespace Pushdown.Json

/-- The text of one value, without white space around it. -/
abbrev Source := List Char

/-- Containers may be nested this deep. -/
def maxLevel : Int := 10000

/-- The number of characters through the closing quote of a string, on top of `n`. -/
def stringLength? (n : Nat) : List Char → Option Nat
  | [] => none
  | '"' :: _ => some (n + 1)
  | '\\' :: _ :: rest => stringLength? (n + 2) rest
  | _ :: rest => stringLength? (n + 1) rest

/-- The number of characters through the bracket that closes a container, on top of `n`. Only
brackets of the container's own kind are matched; `inner` counts those that are open inside it,
and `level` counts brackets of both kinds. -/
def containerLength? (opening closing : Char) (quoted : Bool) (inner : Nat) (level : Int)
    (n : Nat) : List Char → Option Nat
  | [] => none
  | c :: rest =>
    if quoted then
      match c, rest with
      | '\\', _ :: rest => containerLength? opening closing true inner level (n + 2) rest
      | c, rest => containerLength? opening closing (c != '"') inner level (n + 1) rest
    else if c == '"' then containerLength? opening closing true inner level (n + 1) rest
    else if c == '{' || c == '[' then
      if level < maxLevel then
        containerLength? opening closing false (if c == opening then inner + 1 else inner)
          (level + 1) (n + 1) rest
      else none
    else if c == closing then
      match inner with
      | 0 => some (n + 1)
      | inner + 1 => containerLength? opening closing false inner (level - 1) (n + 1) rest
    else if c == '}' || c == ']' then
      containerLength? opening closing false inner (level - 1) (n + 1) rest
    else containerLength? opening closing false inner level (n + 1) rest

/-- Whether a character may follow the first one of a number. -/
def isNumberChar (c : Char) : Bool :=
  c.isDigit || c == '.' || c == 'e' || c == 'E' || c == '+' || c == '-'

/-- The words that are values. -/
def words : List (List Char) := ["true".toList, "false".toList, "null".toList]

/-- The number of characters of the value at the start of a text. -/
def valueLength? : List Char → Option Nat
  | [] => none
  | '{' :: rest => containerLength? '{' '}' false 0 2 1 rest
  | '[' :: rest => containerLength? '[' ']' false 0 2 1 rest
  | '"' :: rest => stringLength? 1 rest
  | c :: rest =>
    if c.isDigit || c == '-' then some (1 + (rest.takeWhile isNumberChar).length)
    else (words.find? (·.isPrefixOf (c :: rest))).map (·.length)

/-- The value at the start of a text, and what follows it. -/
def value? (cs : List Char) : Option (Source × List Char) :=
  let cs := skipSpace cs
  (valueLength? cs).map fun n => (cs.take n, cs.drop n)

/-- One or more parts with commas between them, up to the closing bracket. There are at most
`limit` of them. -/
def partsUpTo {α : Type} (closing : Char) (part? : List Char → Option (α × List Char)) :
    (limit : Nat) → List Char → Option (List α × List Char)
  | 0, _ => none
  | limit + 1, cs => do
    let (first, rest) ← part? cs
    match skipSpace rest with
    | [] => none
    | c :: rest =>
      if c == ',' then
        let (more, rest) ← partsUpTo closing part? limit rest
        some (first :: more, rest)
      else if c == closing then some ([first], rest)
      else none

/-- The parts of a container from behind its opening bracket. Every part takes at least one
character, so the length of the text bounds their number. -/
def parts? {α : Type} (closing : Char) (part? : List Char → Option (α × List Char))
    (cs : List Char) : Option (List α × List Char) :=
  match skipSpace cs with
  | [] => none
  | c :: rest => if c == closing then some ([], rest) else partsUpTo closing part? cs.length cs

/-- What stands behind the word `null`, if the text starts with it. -/
def afterNull? : List Char → Option (List Char)
  | 'n' :: 'u' :: 'l' :: 'l' :: rest => some rest
  | _ => none

/-- The name of a member. The word `null` is an empty name. -/
def name? (cs : List Char) : Option (String × List Char) :=
  match skipSpace cs with
  | '"' :: rest => stringBody? rest
  | cs => (afterNull? cs).map fun rest => ("", rest)

/-- A member with its name and its value. -/
def member? (cs : List Char) : Option ((String × Source) × List Char) := do
  let (name, rest) ← name? cs
  match skipSpace rest with
  | ':' :: rest =>
    let (value, rest) ← value? rest
    some ((name, value), rest)
  | _ => none

/-- What was read, if only white space follows. -/
def alone? {α : Type} (read : α × List Char) : Option α :=
  if (skipSpace read.2).isEmpty then some read.1 else none

/-- Whether a text is the word `null`, or nothing at all. -/
def isNull (cs : List Char) : Bool :=
  let cs := Text.trimChars cs
  cs.isEmpty || cs == "null".toList

/-- The members of an object in their order. -/
def members? (cs : List Char) : Option (List (String × Source)) :=
  match skipSpace cs with
  | '{' :: rest => (parts? '}' member? rest).bind alone?
  | cs => (afterNull? cs).bind fun rest => alone? ([], rest)

/-- The elements of an array in their order. -/
def elements? (cs : List Char) : Option (List Source) :=
  match skipSpace cs with
  | '[' :: rest => (parts? ']' value? rest).bind alone?
  | cs => (afterNull? cs).bind fun rest => alone? ([], rest)

/-- The part of a document that is read: a NUL character ends it. -/
def content (text : String) : List Char := text.toList.takeWhile (· != Char.ofNat 0)

end Pushdown.Json

import Pushdown.Settings.Yaml.BlockText

/-!
# Tokens

The marks and scalars that a settings file is made of, and the readers of a single one. The start
and the end of a collection in a block, which has no marks, are tokens as well; they are found by
indentation.
-/

namespace Pushdown.Yaml

inductive Token where
  | endOfFile
  | documentStart
  | documentEnd
  | blockSequence
  | blockMapping
  | blockEnd
  | openBracket
  | closeBracket
  | openBrace
  | closeBrace
  | comma
  /-- The dash in front of an element. -/
  | item
  | key
  | value
  /-- A name for the node that follows. -/
  | anchor (name : String)
  /-- The name of a node that came before. -/
  | reference (name : String)
  | tag (text : String)
  | scalar (isPlain : Bool) (text : String)
deriving DecidableEq, Inhabited

/-- The name of an anchor or of a reference to one, from behind its mark. -/
def anchorName? (c : Cursor) : Option (String × Cursor) :=
  let name := c.rest.takeWhile isNameChar
  let after := c.skip name.length
  let isDone := endsWord after.rest || after.rest.head?.any fun c =>
    "?:,]\x7d%@".toList.contains c || c.toNat == 0x60
  if name.isEmpty || !isDone then none else some (String.ofList name, after)

/-- Whether a character may be part of a tag. -/
def isTagChar (c : Char) : Bool :=
  isNameChar c || ";/?:@&=+$,.!~*'()[]".toList.contains c

/-- A tag with one or two exclamation marks in front. Tags that are written out in full, or with
a front that has a name, are not known. -/
def tag? (c : Cursor) : Option (String × Cursor) :=
  match c.rest with
  | '!' :: rest =>
    let name := rest.takeWhile isNameChar
    let tag := rest.takeWhile isTagChar
    let isNamed := (rest.drop name.length).head? == some '!'
    let after := c.skip (tag.length + 1)
    if (isNamed && (!name.isEmpty || tag.length == 1)) || !endsWord after.rest then none
    else some (String.ofList ('!' :: tag), after)
  | _ => none

end Pushdown.Yaml

import Pushdown.Settings.Yaml.Token

/-!
# The tokens of a file

A file is read token by token. What makes this hard are keys: that something is a key shows only
at the colon behind it, on the same line, when other tokens may already have been read. So the
place of the last token that could start a key is kept for every pair of brackets that is open,
and the mark of a key, with the start of the mapping that it opens, is put in there later.

A file that is wrong in some place still has the tokens before that place, as far as they are
certain.
-/

namespace Pushdown.Yaml

/-- A token that could start a key. -/
structure KeyPlace where
  /-- How many tokens come before it. -/
  position : Nat
  line : Nat
  column : Nat
  /-- Whether nothing but a key can stand there. -/
  isRequired : Bool
deriving DecidableEq

/-- How far a key may go. -/
def longestKey : Nat := 1024

/-- Whether a colon at this place ends the key. -/
def KeyPlace.reaches (k : KeyPlace) (c : Cursor) : Bool :=
  k.line == c.line && c.column ≤ k.column + longestKey

/-- How many brackets or block collections may be open. -/
def deepest : Nat := 10000

/-- A file that is read up to a place. -/
structure TokenStream where
  cursor : Cursor
  tokens : Array Token := #[]
  /-- The columns of the block collections that are open, from the inside out. -/
  indents : List Nat := []
  /-- The last token that could start a key. -/
  keyPlace : Option KeyPlace := none
  /-- Those outside of the brackets that are open, from the inside out. -/
  outerKeyPlaces : List (Option KeyPlace) := []
  /-- Whether a key may start here. -/
  allowsKey : Bool := true

namespace TokenStream

/-- Whether a bracket is open, inside of which indentation does not count. -/
def inFlow (s : TokenStream) : Bool := !s.outerKeyPlaces.isEmpty

/-- The least column of what is inside the innermost block collection. -/
def innerColumn (s : TokenStream) : Nat := (s.indents.head?.map (· + 1)).getD 0

/-- Add a token that takes some characters of the line. -/
def push (s : TokenStream) (token : Token) (length : Nat) : TokenStream :=
  { s with tokens := s.tokens.push token, cursor := s.cursor.skip length }

/-- Put tokens in at a position. -/
def insertAt (s : TokenStream) (position : Nat) (tokens : Array Token) : TokenStream :=
  { s with tokens :=
      s.tokens.extract 0 position ++ tokens ++ s.tokens.extract position s.tokens.size }

/-! ## Keys -/

/-- Give up the place of a key. -/
def dropKey? (s : TokenStream) : Option TokenStream :=
  if s.keyPlace.any (·.isRequired) then none else some { s with keyPlace := none }

/-- Keep this place as that of a key, if there may be one. -/
def saveKey? (s : TokenStream) : Option TokenStream :=
  if s.allowsKey then do
    let s ← s.dropKey?
    let isRequired := !s.inFlow && s.indents.head? == some s.cursor.column
    some { s with keyPlace := some ⟨s.tokens.size, s.cursor.line, s.cursor.column, isRequired⟩ }
  else some s

/-! ## Blocks -/

/-- Open a block collection at a column, if that is further inside than the innermost one. Its
start goes to a position. -/
def openBlock? (s : TokenStream) (column position : Nat) (token : Token) : Option TokenStream :=
  if !s.inFlow && s.indents.head?.all (· < column) then
    if s.indents.length < deepest then
      some { s.insertAt position #[token] with indents := column :: s.indents }
    else none
  else some s

/-- Close the block collections whose column has a property. -/
def closeBlocks (s : TokenStream) (p : Nat → Bool) : TokenStream :=
  if s.inFlow then s
  else
    let closed := s.indents.takeWhile p
    { s with
      tokens := s.tokens ++ Array.replicate closed.length .blockEnd
      indents := s.indents.drop closed.length }

/-! ## Blanks and comments -/

/-- What is being skipped. -/
inductive Skipped where
  | blanks
  | comment
  /-- Blanks between two comments. -/
  | betweenComments

/-- Whether the next thing behind a line end, after blanks and empty lines, is a comment. -/
def leadsToComment (lineEnd : Char) (rest : List Char) : Bool :=
  lineEnd == '\n' &&
    ((rest.take (blockSize - 1)).dropWhile fun c => isBlank c || c == '\n').head? == some '#'

/-- Skip blanks, comments and line ends, behind which a key may start. Tabs are not skipped where
a key may start, except between comments. -/
def skipBlanks (inFlow allowsKey : Bool) (skipped : Skipped) (line column : Nat) :
    List Char → Bool × Cursor
  | [] => (allowsKey, ⟨[], line, column⟩)
  | c :: rest =>
    if isBreak c then
      let next := match skipped with
        | .blanks => Skipped.blanks
        | .comment => if leadsToComment c rest then .betweenComments else .blanks
        | .betweenComments => .betweenComments
      skipBlanks inFlow (allowsKey || !inFlow) next (line + 1) 0 rest
    else
      match skipped with
      | .comment => skipBlanks inFlow allowsKey .comment line (column + 1) rest
      | .blanks =>
        if c == '#' then skipBlanks inFlow allowsKey .comment line (column + 1) rest
        else if c == ' ' || (c == '\t' && (inFlow || !allowsKey)) then
          skipBlanks inFlow allowsKey .blanks line (column + 1) rest
        else (allowsKey, ⟨c :: rest, line, column⟩)
      | .betweenComments =>
        let next := if c == '#' then Skipped.comment else .betweenComments
        skipBlanks inFlow allowsKey next line (column + 1) rest

/-- Move to the next token, closing the blocks that it is not part of. -/
def skipToToken (s : TokenStream) : TokenStream :=
  let c := s.cursor
  let (allowsKey, cursor) := skipBlanks s.inFlow s.allowsKey .blanks c.line c.column c.rest
  { s with cursor, allowsKey }.closeBlocks (cursor.column < ·)

/-! ## Tokens -/

/-- Add the mark of a document, which ends everything that is open. -/
def document? (s : TokenStream) (token : Token) (length : Nat) : Option TokenStream := do
  let s ← (s.closeBlocks fun _ => true).dropKey?
  some { s.push token length with allowsKey := false }

/-- Add an opening bracket. -/
def openFlow? (s : TokenStream) (token : Token) : Option TokenStream := do
  let s ← s.saveKey?
  let outerKeyPlaces := s.keyPlace :: s.outerKeyPlaces
  if outerKeyPlaces.length ≤ deepest then
    some { s.push token 1 with outerKeyPlaces, keyPlace := none, allowsKey := true }
  else none

/-- Add a closing bracket. -/
def closeFlow? (s : TokenStream) (token : Token) : Option TokenStream := do
  let s ← s.dropKey?
  let s := match s.outerKeyPlaces with
    | [] => s
    | keyPlace :: outerKeyPlaces => { s with keyPlace, outerKeyPlaces }
  some { s.push token 1 with allowsKey := false }

/-- Add a comma. -/
def comma? (s : TokenStream) : Option TokenStream := do
  let s ← s.dropKey?
  some { s.push .comma 1 with allowsKey := true }

/-- Add the dash of an element. In a block it may open a sequence. -/
def item? (s : TokenStream) : Option TokenStream := do
  if !s.inFlow && !s.allowsKey then none
  else
    let s ← s.openBlock? s.cursor.column s.tokens.size .blockSequence
    let s ← s.dropKey?
    some { s.push .item 1 with allowsKey := true }

/-- Add the question mark of a key. In a block it may open a mapping. -/
def key? (s : TokenStream) : Option TokenStream := do
  if !s.inFlow && !s.allowsKey then none
  else
    let s ← s.openBlock? s.cursor.column s.tokens.size .blockMapping
    let s ← s.dropKey?
    some { s.push .key 1 with allowsKey := !s.inFlow }

/-- Add the colon of a value, and in front of the key that it ends the mark of the key. -/
def value? (s : TokenStream) : Option TokenStream := do
  match s.keyPlace.filter (·.reaches s.cursor) with
  | some k =>
    let s ← (s.insertAt k.position #[.key]).openBlock? k.column k.position .blockMapping
    some { s.push .value 1 with keyPlace := none, allowsKey := false }
  | none =>
    let s ← s.dropKey?
    if !s.inFlow && !s.allowsKey then none
    else
      let s ← s.openBlock? s.cursor.column s.tokens.size .blockMapping
      some { s.push .value 1 with allowsKey := !s.inFlow }

/-- Add a token that may start a key, and go to the place behind it. -/
def word? (s : TokenStream) (read? : Cursor → Option (Token × Cursor)) : Option TokenStream := do
  let s ← s.saveKey?
  let (token, cursor) ← read? s.cursor
  some { s with tokens := s.tokens.push token, cursor, allowsKey := false }

/-- Add a plain scalar. Behind a line end a key may start. -/
def plainScalar? (s : TokenStream) : Option TokenStream := do
  let s ← s.saveKey?
  let c := s.cursor
  let (text, cursor, endsLine) ←
    plain? s.inFlow s.innerColumn c.line c.column (.blanks []) c.rest
  some { s with
    tokens := s.tokens.push (.scalar true (String.ofList text))
    cursor := if endsLine then cursor else cursor.skipComment
    allowsKey := endsLine }

/-- Add a scalar in a block. -/
def blockScalar? (s : TokenStream) (isFolded : Bool) : Option TokenStream := do
  let s ← s.dropKey?
  let (text, cursor) ← Yaml.blockScalar? isFolded s.innerColumn (s.cursor.skip 1)
  some { s with
    tokens := s.tokens.push (.scalar false (String.ofList text)), cursor, allowsKey := true }

/-- The place behind a comment on the same line. -/
def skipComment (s : TokenStream) : TokenStream := { s with cursor := s.cursor.skipComment }

/-- A scalar between quotes, the reader of which starts behind the opening quote. -/
def quotedScalar? (read? : Nat → Nat → Gap → List Char → Scanned) (c : Cursor) :
    Option (Token × Cursor) :=
  (read? c.line (c.column + 1) (.blanks []) (c.rest.drop 1)).map fun (text, after) =>
    (.scalar false (String.ofList text), after)

/-- A name behind a mark. -/
def named? (token : String → Token) (c : Cursor) : Option (Token × Cursor) :=
  (anchorName? (c.skip 1)).map fun (name, after) => (token name, after)

/-- Read the next token, from the place where it starts. -/
def next? (s : TokenStream) : Option TokenStream :=
  match s.cursor.rest with
  | [] => s.document? .endOfFile 0
  | c :: rest =>
    if s.cursor.column == 0 && startsWithMarker (c :: rest) then
      s.document? (if c == '-' then .documentStart else .documentEnd) 3
    else if c == '-' && endsWord rest then s.item?
    else if (c == '|' || c == '>') && !s.inFlow then s.blockScalar? (c == '>')
    else if startsPlain s.inFlow (c :: rest) then s.plainScalar?
    else
      skipComment <$>
        if c == '[' then s.openFlow? .openBracket
        else if c == '\x7b' then s.openFlow? .openBrace
        else if c == ']' then s.closeFlow? .closeBracket
        else if c == '\x7d' then s.closeFlow? .closeBrace
        else if c == ',' then s.comma?
        else if c == '?' then s.key?
        else if c == ':' then s.value?
        else if c == '*' then s.word? (named? .reference)
        else if c == '&' then s.word? (named? .anchor)
        else if c == '!' then s.word? fun c => (tag? c).map fun (tag, c) => (.tag tag, c)
        else if c == '\'' then s.word? (quotedScalar? singleQuoted?)
        else if c == '"' then s.word? (quotedScalar? doubleQuoted?)
        else none

/-- The tokens that are certain where nothing more can be read: two more have to follow a token,
and it must not be one that could start a key. -/
def certain (s : TokenStream) : List Token :=
  let pending := (s.keyPlace :: s.outerKeyPlaces).filterMap fun k =>
    (k.filter (·.reaches s.cursor)).map (·.position)
  s.tokens.toList.take (pending.foldl min (s.tokens.size - 2))

/-- The tokens of a file, of which there are at most `limit` more. If not `isWhole`, the end of
what can be read is not the end of the file. -/
def readAll (isWhole : Bool) : (limit : Nat) → TokenStream → List Token
  | 0, s => s.certain
  | limit + 1, s =>
    let start := s.skipToToken
    match start.next? with
    | none => s.certain
    | some next =>
      if start.cursor.rest.isEmpty then if isWhole then next.tokens.toList else s.certain
      else readAll isWhole limit next

end TokenStream

/-- The tokens of a file, up to its end or the first place where it is wrong. -/
def tokens (text : String) : List Token :=
  let (chars, isWhole) := contents text
  TokenStream.readAll isWhole (chars.length + 1) { cursor := { rest := chars } }

end Pushdown.Yaml

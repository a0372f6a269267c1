import Pushdown.Settings.Yaml.TokenStream

/-!
# The contents of a file

A file holds scalars, sequences and mappings, one inside the other. Of several documents only the
first is read. A node may have a name, by which it can stand in other places of the file as well.
-/

namespace Pushdown.Yaml

inductive Node where
  | scalar (tag : Option String) (isPlain : Bool) (text : String)
  | sequence (items : List Node)
  | mapping (entries : List (Node × Node))
  /-- A node that stands here by its name. -/
  | reference (name : String) (target : Node)
  /-- A collection that stands inside itself by its name. -/
  | enclosing (name : String)
deriving Inhabited

/-- A node that is not written. -/
def Node.empty : Node := .scalar none true ""

namespace Node

/-- The tokens to be read, and the nodes with a name. A node that is not complete is missing. -/
structure Reading where
  tokens : List Token
  named : Array (String × Option Node) := #[]

abbrev Reader := StateT Reading Option

/-- The next token. Nothing can be read behind the last certain token. -/
def peek : Reader Token := fun r => r.tokens.head?.map fun token => (token, r)

def skip : Reader Unit := modify fun r => { r with tokens := r.tokens.drop 1 }

/-- Skip a token if it comes next. -/
def skipIf (token : Token) : Reader Bool := do
  if (← peek) == token then skip; return true else return false

/-- Where a node stands. -/
inductive Place where
  | flow
  | block
  /-- As the key or value of a mapping in a block, where the dashes of a sequence need not be
  indented. -/
  | entry
deriving DecidableEq

/-- The name and the tag in front of a node. -/
structure Properties where
  name : Option String := none
  tag : Option String := none

/-- Read the name and the tag, in any order. -/
def properties : Reader Properties := do
  match ← peek with
  | .anchor name =>
    skip
    match ← peek with
    | .tag tag => skip; return ⟨some name, some tag⟩
    | _ => return ⟨some name, none⟩
  | .tag tag =>
    skip
    match ← peek with
    | .anchor name => skip; return ⟨some name, some tag⟩
    | _ => return ⟨none, some tag⟩
  | _ => return {}

/-- Name the node that is about to be read. -/
def announce (name : Option String) : Reader Unit :=
  match name with
  | some name => modify fun r => { r with named := r.named.push (name, none) }
  | none => pure ()

/-- Complete the node that was named when there were `count` named nodes. -/
def complete (count : Nat) (name : Option String) (node : Node) : Reader Unit :=
  match name with
  | some name => modify fun r => { r with named := r.named.setIfInBounds count (name, some node) }
  | none => pure ()

/-- The node that was named last like this. -/
def referenced (name : String) : Reader Node := do
  match (← get).named.findRev? (·.1 == name) with
  | some (_, some node) => return .reference name node
  | some (_, none) => return .enclosing name
  | none => failure

/-- The tag that counts: one exclamation mark alone is none. -/
def Properties.givenTag (p : Properties) : Option String := p.tag.filter (· != "!")

mutual

/-- Read a node. It takes at most `limit` steps. -/
def read : (limit : Nat) → Place → Reader Node
  | 0, _ => failure
  | limit + 1, place => do
    match ← peek with
    | .reference name => skip; referenced name
    | _ =>
      let p ← properties
      let count := (← get).named.size
      announce p.name
      let node ← match ← peek, place with
        | .scalar isPlain text, _ => do skip; pure (.scalar p.givenTag isPlain text)
        | .openBracket, _ => do skip; .sequence <$> flowItems limit true
        | .openBrace, _ => do skip; .mapping <$> flowEntries limit true
        | .item, .entry => .sequence <$> openItems limit
        | .blockSequence, .block | .blockSequence, .entry => do
          skip; .sequence <$> blockItems limit
        | .blockMapping, .block | .blockMapping, .entry => do
          skip; .mapping <$> blockEntries limit
        | _, _ =>
          if p.name.isSome || p.tag.isSome then pure (.scalar p.givenTag true "") else failure
      complete count p.name node
      return node

/-- Read a node, or nothing if one of these tokens comes next. -/
def readUnless : (limit : Nat) → Place → List Token → Reader Node
  | 0, _, _ => failure
  | limit + 1, place, ends => do
    if ends.contains (← peek) then return .empty else read limit place

/-- The elements of a sequence in a block. -/
def blockItems : (limit : Nat) → Reader (List Node)
  | 0 => failure
  | limit + 1 => do
    if ← skipIf .blockEnd then return []
    else if ← skipIf .item then
      let node ← readUnless limit .block [.item, .blockEnd]
      return node :: (← blockItems limit)
    else failure

/-- The elements of a sequence that is not indented. -/
def openItems : (limit : Nat) → Reader (List Node)
  | 0 => failure
  | limit + 1 => do
    if ← skipIf .item then
      let node ← readUnless limit .block [.item, .key, .value, .blockEnd]
      return node :: (← openItems limit)
    else return []

/-- The entries of a mapping in a block. -/
def blockEntries : (limit : Nat) → Reader (List (Node × Node))
  | 0 => failure
  | limit + 1 => do
    if ← skipIf .blockEnd then return []
    else if ← skipIf .key then
      let ends := [Token.key, .value, .blockEnd]
      let key ← readUnless limit .entry ends
      let value ← if ← skipIf .value then readUnless limit .entry ends else pure .empty
      return (key, value) :: (← blockEntries limit)
    else failure

/-- The value of an entry between brackets. -/
def flowValue : (limit : Nat) → (close : Token) → Reader Node
  | 0, _ => failure
  | limit + 1, close => do
    if ← skipIf .value then readUnless limit .flow [.comma, close] else return .empty

/-- The elements of a sequence between brackets. An entry of a mapping may stand for a mapping;
a token that ends its key where there is none is lost. -/
def flowItems : (limit : Nat) → (isFirst : Bool) → Reader (List Node)
  | 0, _ => failure
  | limit + 1, isFirst => do
    if ← skipIf .closeBracket then return []
    else if !isFirst && !(← skipIf .comma) then failure
    else if ← skipIf .closeBracket then return []
    else if ← skipIf .key then
      let key ← if [Token.value, .comma, .closeBracket].contains (← peek) then
          do skip; pure .empty
        else read limit .flow
      let value ← flowValue limit .closeBracket
      return .mapping [(key, value)] :: (← flowItems limit false)
    else
      let node ← read limit .flow
      return node :: (← flowItems limit false)

/-- The entries of a mapping between braces. A key may stand without a value. -/
def flowEntries : (limit : Nat) → (isFirst : Bool) → Reader (List (Node × Node))
  | 0, _ => failure
  | limit + 1, isFirst => do
    if ← skipIf .closeBrace then return []
    else if !isFirst && !(← skipIf .comma) then failure
    else if ← skipIf .closeBrace then return []
    else if ← skipIf .key then
      let key ← readUnless limit .flow [.value, .comma, .closeBrace]
      let value ← flowValue limit .closeBrace
      return (key, value) :: (← flowEntries limit false)
    else
      let key ← read limit .flow
      return (key, .empty) :: (← flowEntries limit false)

end

/-- The first document. -/
def document (limit : Nat) : Reader Node := do
  match ← peek with
  | .endOfFile => return .empty
  | _ =>
    let isMarked ← skipIf .documentStart
    let node ← if isMarked then
        readUnless limit .block [.documentStart, .documentEnd, .endOfFile]
      else read limit .block
    let _ ← peek
    return node

end Node

/-- The first document of a text. -/
def read? (text : String) : Option Node :=
  let tokens := tokens text
  (Node.document (3 * tokens.length + 3) { tokens }).map (·.1)

end Pushdown.Yaml

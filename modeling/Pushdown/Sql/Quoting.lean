import Pushdown.Dialect.Profile

/-!
# Quoting names and texts

A name is written bare only if the dialect reads it back as the same name: it is a regular
identifier, not reserved, and already in the case that the dialect folds to. Otherwise it stands
between quotes, and a closing quote inside it is written twice. Texts always stand between
single quotes.
-/

namespace Pushdown

/-- An ASCII letter followed by ASCII letters, digits and underscores. -/
def isRegularName : List Char → Bool
  | [] => false
  | first :: rest => first.isAlpha && rest.all fun c => c.isAlphanum || c == '_'

/-- Write each occurrence of `mark` twice, from left to right. While `skip` is positive the
characters belong to an occurrence that has been written already. -/
def doubleMark (mark : List Char) : (skip : Nat) → List Char → List Char
  | _, [] => []
  | skip + 1, _ :: rest => doubleMark mark skip rest
  | 0, c :: rest =>
    if !mark.isEmpty && mark.isPrefixOf (c :: rest) then
      mark ++ mark ++ doubleMark mark (mark.length - 1) rest
    else c :: doubleMark mark 0 rest

/-- How one character is written inside a string constant. -/
def StringEscape.char (e : StringEscape) (c : Char) : List Char :=
  match e with
  | backslash => if c == '\\' || c == '\'' then ['\\', c] else [c]
  | doubledBackslash => if c == '\\' || c == '\'' then [c, c] else [c]
  | doubled | other _ => if c == '\'' then [c, c] else [c]

namespace Profile

/-- Whether a name cannot be written bare. -/
def needsQuotes (p : Profile) (name : String) : Bool :=
  if p.identifierCase = .sensitive || !isRegularName name.toList then true
  else if p.reserved.contains (Text.upper name) then true
  else
    match p.identifierCase with
    | .upper => Text.upper name != name
    | .lower => Text.lower name != name
    | _ => false

/-- A name between quotes. -/
def quotedName (p : Profile) (name : String) : String :=
  p.quoteOpen ++ String.ofList (doubleMark p.quoteClose.toList 0 name.toList) ++ p.quoteClose

/-- A name, quoted if it has to be or if `always` is set. -/
def writeName (p : Profile) (always : Bool) (name : String) : String :=
  if always || p.needsQuotes name then p.quotedName name else name

/-- A text between single quotes. -/
def quotedText (p : Profile) (text : String) : String :=
  "'" ++ String.ofList (text.toList.flatMap p.stringEscape.char) ++ "'"

end Profile

end Pushdown

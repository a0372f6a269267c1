import Pushdown.Sql.Quoting
import Pushdown.Text.Template

/-!
# Statements as fragments

A statement is put together from fragments that still tell names and texts of the request from
the words of the language, so that quoting happens in one place, when the fragments are
written out.
-/

namespace Pushdown

/-- A part of a statement. -/
inductive Fragment where
  /-- Words, symbols and numbers, written as they are. -/
  | raw (text : String)
  /-- The name of a table, column, schema or alias. -/
  | name (name : String)
  /-- A string constant. -/
  | text (text : String)
deriving DecidableEq, Inhabited

/-- A statement or a part of one. -/
abbrev Sql := List Fragment

namespace Sql

def raw (text : String) : Sql := [.raw text]

/-- The parts with a separator between them. -/
def joinWith (separator : String) (parts : List Sql) : Sql :=
  (parts.intersperse (raw separator)).flatten

def parens (s : Sql) : Sql := raw "(" ++ s ++ raw ")"

/-- Put a text constant into a template. -/
def fill (p : Profile) (template value : String) : Sql :=
  (Text.fillTemplate template.toList (p.quotedText value).toList).map fun
    | .copied chars => .raw (String.ofList chars)
    | .whole => .text value

end Sql

/-- Write a fragment out in a dialect. -/
def Fragment.write (p : Profile) (quoteNames : Bool) : Fragment → String
  | .raw s => s
  | .name s => p.writeName quoteNames s
  | .text s => p.quotedText s

/-- Write a statement out in a dialect. -/
def Sql.write (p : Profile) (quoteNames : Bool) (s : Sql) : String :=
  String.join (s.map (Fragment.write p quoteNames))

end Pushdown

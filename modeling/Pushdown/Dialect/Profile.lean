import Pushdown.Dialect.CapabilitySet
import Pushdown.Dictionary
import Pushdown.Syntax.DataType
import Pushdown.Text.Case

/-!
# Dialect profiles

Everything about a database dialect that is data: which features it has, how it quotes names
and texts, and how it spells functions, aggregates, window functions and types. The default
profile is that of a database which follows the standard and has every feature.
-/

namespace Pushdown

/-- How a dialect treats the case of names that are not quoted. -/
inductive IdentifierCase where
  /-- Names fold to capital letters. -/
  | upper
  /-- Names fold to small letters. -/
  | lower
  /-- Names are the same in any case. -/
  | insensitive
  /-- Every name has to be quoted. -/
  | sensitive
  | other (code : Int)
deriving DecidableEq, Inhabited

/-- How a dialect limits the number of rows. -/
inductive LimitStyle where
  /-- `LIMIT n OFFSET m` at the end. -/
  | limitOffset
  /-- `TOP n` before the projection. -/
  | top
  /-- `OFFSET m ROWS FETCH FIRST n ROWS ONLY` at the end. -/
  | fetchFirst
  | other (code : Int)
deriving DecidableEq, Inhabited

/-- Where NULL sorts when a statement does not say. -/
inductive NullSorting where
  | high | low | atStart | atEnd
  | other (code : Int)
deriving DecidableEq, Inhabited

/-- How a conversion is written. -/
inductive CastStyle where
  /-- `CAST(x AS T)`. -/
  | function
  /-- `(x)::T`. -/
  | doubleColon
  | other (code : Int)
deriving DecidableEq, Inhabited

/-- How quotes and backslashes are written inside a string constant. -/
inductive StringEscape where
  /-- A quote is written twice. -/
  | doubled
  /-- A backslash goes before quotes and backslashes. -/
  | backslash
  /-- Quotes and backslashes are written twice. -/
  | doubledBackslash
  | other (code : Int)
deriving DecidableEq, Inhabited

/-- How a function is applied to its arguments. -/
inductive FunctionStyle where
  /-- `NAME(a, b)`. -/
  | call
  /-- `(a NAME b)`. -/
  | operator
  /-- `(NAME a)`. -/
  | unary
  /-- `NAME`. -/
  | keyword
  | other (code : Int)
deriving DecidableEq, Inhabited

namespace IdentifierCase

def code : IdentifierCase → Int
  | upper => 0
  | lower => 1
  | insensitive => 2
  | sensitive => 3
  | other code => code

def ofCode (n : Int) : IdentifierCase :=
  ([upper, lower, insensitive, sensitive].find? (·.code == n)).getD (other n)

end IdentifierCase

namespace LimitStyle

def code : LimitStyle → Int
  | limitOffset => 0
  | top => 1
  | fetchFirst => 2
  | other code => code

def ofCode (n : Int) : LimitStyle :=
  ([limitOffset, top, fetchFirst].find? (·.code == n)).getD (other n)

end LimitStyle

namespace NullSorting

def code : NullSorting → Int
  | high => 0
  | low => 1
  | atStart => 2
  | atEnd => 3
  | other code => code

def ofCode (n : Int) : NullSorting :=
  ([high, low, atStart, atEnd].find? (·.code == n)).getD (other n)

/-- Whether NULL comes last for a sort direction. -/
def nullsLast (s : NullSorting) (ascending : Bool) : Bool :=
  match s with
  | low => !ascending
  | atStart => false
  | atEnd => true
  | high | other _ => ascending

end NullSorting

namespace CastStyle

def code : CastStyle → Int
  | function => 0
  | doubleColon => 1
  | other code => code

def ofCode (n : Int) : CastStyle := ([function, doubleColon].find? (·.code == n)).getD (other n)

end CastStyle

namespace StringEscape

def code : StringEscape → Int
  | doubled => 0
  | backslash => 1
  | doubledBackslash => 2
  | other code => code

def ofCode (n : Int) : StringEscape :=
  ([doubled, backslash, doubledBackslash].find? (·.code == n)).getD (other n)

end StringEscape

namespace FunctionStyle

def code : FunctionStyle → Int
  | call => 0
  | operator => 1
  | unary => 2
  | keyword => 3
  | other code => code

def ofCode (n : Int) : FunctionStyle :=
  ([call, operator, unary, keyword].find? (·.code == n)).getD (other n)

end FunctionStyle

/-- The spelling of a function. -/
structure FunctionSpec where
  name : String
  style : FunctionStyle := .call
  /-- The number of arguments; any number if negative. -/
  arity : Int
deriving DecidableEq, Inhabited

/-- The spelling of a data type. -/
structure TypeSpec where
  name : String
  /-- The timestamp type with a local time zone; there is none if empty. -/
  localTimeZone : String := ""
  /-- The type is written without its parameters. -/
  noParams : Bool := false
deriving DecidableEq, Inhabited

/-- Words that no dialect takes as a name unless it is quoted. -/
def standardReserved : List String := [
  "ALL", "ALTER", "AND", "ANY", "ARRAY", "AS", "ASC", "BETWEEN", "BOTH", "BY", "CASE", "CAST",
  "CHECK", "COLLATE", "COLUMN", "CONSTRAINT", "CREATE", "CROSS", "CURRENT_DATE", "CURRENT_TIME",
  "CURRENT_TIMESTAMP", "CURRENT_USER", "DATE", "DEFAULT", "DELETE", "DESC", "DISTINCT", "DROP",
  "ELSE", "END", "EXCEPT", "EXISTS", "EXTRACT", "FALSE", "FETCH", "FILTER", "FOR", "FOREIGN",
  "FROM", "FULL", "GRANT", "GROUP", "HAVING", "IN", "INNER", "INSERT", "INTERSECT", "INTERVAL",
  "INTO", "IS", "JOIN", "LEADING", "LEFT", "LIKE", "LIMIT", "LOCALTIME", "LOCALTIMESTAMP",
  "NATURAL", "NOT", "NULL", "OF", "OFFSET", "ON", "ONLY", "OR", "ORDER", "OUTER", "OVER",
  "PARTITION", "PRIMARY", "RANGE", "REFERENCES", "RIGHT", "ROW", "ROWS", "SELECT",
  "SESSION_USER", "SET", "SOME", "TABLE", "THEN", "TIME", "TIMESTAMP", "TO", "TRAILING", "TRUE",
  "UNION", "UNIQUE", "UNKNOWN", "UPDATE", "USER", "USING", "VALUES", "WHEN", "WHERE", "WINDOW",
  "WITH"]

/-- The standard reserved words and those of a dialect's own, in capital letters. -/
def reservedWords (extra : List String) : List String :=
  (standardReserved ++ extra.map Text.upperFully).eraseDups

private def call (name : String) (arity : Int) : String × FunctionSpec := (name, { name, arity })

/-- The standard spellings of scalar functions. -/
def standardFunctions : Dictionary String FunctionSpec := ⟨[
  ("ADD", ⟨"+", .operator, 2⟩), ("SUB", ⟨"-", .operator, 2⟩), ("MULT", ⟨"*", .operator, 2⟩),
  ("FLOAT_DIV", ⟨"/", .operator, 2⟩), ("NEG", ⟨"-", .unary, 1⟩),
  call "ABS" 1, call "CEIL" 1, call "FLOOR" 1, call "ROUND" (-1), call "TRUNC" (-1),
  call "MOD" 2, call "POWER" 2, call "SQRT" 1, call "SIGN" 1, call "EXP" 1, call "LN" 1,
  call "CONCAT" (-1), call "UPPER" 1, call "LOWER" 1, call "LENGTH" 1, call "SUBSTR" (-1),
  call "TRIM" 1, call "LTRIM" 1, call "RTRIM" 1, call "REPLACE" 3, call "LPAD" (-1),
  call "RPAD" (-1), call "COALESCE" (-1), call "NULLIF" 2, call "GREATEST" (-1),
  call "LEAST" (-1), ("CURRENT_DATE", ⟨"CURRENT_DATE", .keyword, 0⟩),
  ("CURRENT_TIMESTAMP", ⟨"CURRENT_TIMESTAMP", .keyword, 0⟩)]⟩

/-- Names that are spelled as they are. -/
def sameSpelling (names : List String) : Dictionary String String := ⟨names.map fun n => (n, n)⟩

/-- The standard spellings of aggregates. -/
def standardAggregates : Dictionary String String := sameSpelling [
  "COUNT", "SUM", "MIN", "MAX", "AVG", "STDDEV", "STDDEV_POP", "STDDEV_SAMP", "VARIANCE",
  "VAR_POP", "VAR_SAMP"]

/-- The standard spellings of window functions. -/
def standardWindowFunctions : Dictionary String String := sameSpelling [
  "ROW_NUMBER", "RANK", "DENSE_RANK", "PERCENT_RANK", "CUME_DIST", "NTILE", "LAG", "LEAD",
  "FIRST_VALUE", "LAST_VALUE", "COUNT", "SUM", "MIN", "MAX", "AVG"]

/-- The standard spellings of data types. -/
def standardTypes : Dictionary TypeKind TypeSpec := ⟨[
  (.decimal, { name := "DECIMAL" }), (.double, { name := "DOUBLE PRECISION" }),
  (.varchar, { name := "VARCHAR" }), (.char, { name := "CHAR" }), (.date, { name := "DATE" }),
  (.timestamp, { name := "TIMESTAMP" }), (.boolean, { name := "BOOLEAN" }),
  (.interval, { name := "INTERVAL" })]⟩

/-- The features and spellings of a dialect. -/
structure Profile where
  supported : CapabilitySet := .full
  quoteOpen : String := "\""
  quoteClose : String := "\""
  identifierCase : IdentifierCase := .upper
  /-- In capital letters. -/
  reserved : List String := standardReserved
  limitStyle : LimitStyle := .limitOffset
  nullSorting : NullSorting := .high
  /-- The ascending direction is not written. -/
  omitAscending : Bool := false
  castStyle : CastStyle := .function
  stringEscape : StringEscape := .doubled
  /-- A format with a place for the quoted constant. -/
  dateLiteral : String := "DATE %s"
  timestampLiteral : String := "TIMESTAMP %s"
  /-- An alias of a table stands behind `AS`. -/
  tableAliasKeyword : Bool := true
  /-- The table to select from in a statement without a FROM clause. -/
  dummyTable : String := ""
  qualifyCatalog : Bool := true
  qualifySchema : Bool := true
  regexp : FunctionSpec := { name := "REGEXP_LIKE", arity := 2 }
  functions : Dictionary String FunctionSpec := standardFunctions
  aggregates : Dictionary String String := standardAggregates
  windowFunctions : Dictionary String String := standardWindowFunctions
  types : Dictionary TypeKind TypeSpec := standardTypes
deriving Inhabited

namespace Profile

def has (p : Profile) (c : Capability) : Bool := p.supported.has c

/-- The profile without some features. -/
def without (p : Profile) (cs : List Capability) : Profile :=
  { p with supported := p.supported.without cs }

/-- The names of all features, in ascending order: functions, aggregates and window functions
are reported each with a mark in front. -/
def names (p : Profile) : List String :=
  sortTexts (p.supported.toList.map (·.name) ++ p.functions.keys.map ("FN_" ++ ·) ++
    p.aggregates.keys.map ("AGG_" ++ ·) ++
    if p.has .windowFunctions then p.windowFunctions.keys.map ("WIN_" ++ ·) else [])

/-- The spelling of a data type with its parameters, if the dialect has the type. -/
def typeName? (p : Profile) (t : DataType) : Option String := do
  let spec ← p.types.get? t.kind
  if t.kind = .timestamp ∧ t.withLocalTimeZone then
    if spec.localTimeZone = "" then none else some spec.localTimeZone
  else if spec.noParams then some spec.name
  else
    match t.kind with
    | .decimal => some s!"{spec.name}({t.precision}, {t.scale})"
    | .varchar | .char => some s!"{spec.name}({t.size})"
    | .interval => some (spec.name ++ " " ++ t.range.qualifier)
    | _ => some spec.name

end Profile

end Pushdown

import Pushdown.Sql.Unsupported
import Pushdown.Syntax.Node

/-!
# Names and constants

The parts of a statement that hold no other parts.
-/

namespace Pushdown.Render

open Sql (raw joinWith parens)

/-! ## Names -/

/-- The name of a table behind those of its catalog and schema, as far as the dialect and the
context have them. -/
def tableName (d : Dialect) (ctx : Context) (name : String) : Sql :=
  let part (wanted : Bool) (name : String) : List Sql :=
    if wanted && name != "" then [[.name name]] else []
  joinWith "." (part d.profile.qualifyCatalog ctx.catalog ++
    part d.profile.qualifySchema ctx.schema ++ [[.name name]])

/-- An alias of a FROM item. -/
def tableAlias (d : Dialect) (aliasName : String) : Sql :=
  raw (if d.profile.tableAliasKeyword then " AS " else " ") ++ [.name aliasName]

def table (d : Dialect) (ctx : Context) (t : Table) : Sql :=
  tableName d ctx t.name ++ if t.aliasName = "" then [] else tableAlias d t.aliasName

def column (d : Dialect) (ctx : Context) (c : Column) : Sql :=
  if c.aliasName ≠ "" then [.name c.aliasName] ++ raw "." ++ [.name c.name]
  else if ctx.multipleTables ∧ c.table ≠ "" then
    tableName d ctx c.table ++ raw "." ++ [.name c.name]
  else [.name c.name]

/-! ## Constants and limits -/

def literal (d : Dialect) (l : Literal) : Result Sql :=
  match l.type with
  | .null => .ok (raw "NULL")
  | .bool =>
    if d.has .booleanLiterals then .ok (raw (Text.upper l.value))
    else .ok (raw (if l.value = "true" then "1" else "0"))
  | .exactNumeric | .double => .ok (raw l.value)
  | .string => .ok [.text l.value]
  | .date => .ok (Sql.fill d.profile d.profile.dateLiteral l.value)
  | .timestamp | .timestampUtc => .ok (Sql.fill d.profile d.profile.timestampLiteral l.value)
  | .interval => do
    require d .intervalLiterals .literal "interval literals"
    return raw "INTERVAL " ++ [.text l.value] ++ raw (" " ++ l.interval.range.qualifier)
  | .other name => refuse d .literal (name ++ " literals")

/-- The text of a row limit in a style. -/
def limitText (style : LimitStyle) (l : Limit) : String :=
  match style with
  | .top => s!"TOP {l.count}"
  | .fetchFirst =>
    if l.offset > 0 then s!"OFFSET {l.offset} ROWS FETCH FIRST {l.count} ROWS ONLY"
    else s!"FETCH FIRST {l.count} ROWS ONLY"
  | .limitOffset | .other _ =>
    if l.offset > 0 then s!"LIMIT {l.count} OFFSET {l.offset}" else s!"LIMIT {l.count}"

def limit (d : Dialect) (l : Limit) : Result Sql := do
  require d .limit .limit "LIMIT"
  checkIf (l.offset > 0) (require d .limitWithOffset .limit "OFFSET")
  checkIf (l.offset > 0 && d.profile.limitStyle = .top)
    (refuse d .limit "OFFSET" "TOP cannot skip rows")
  return raw (limitText d.profile.limitStyle l)

end Pushdown.Render

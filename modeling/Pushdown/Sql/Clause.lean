import Pushdown.Sql.Leaf

/-!
# Clauses

A statement and its clauses, each from its rendered parts.
-/

namespace Pushdown.Render

open Sql (raw joinWith parens)

/-- The text of a projection that asks for any value at all. -/
def anyValue (d : Dialect) : String := if d.has .booleanLiterals then "TRUE" else "1"

/-- The direction and, where it differs from what the dialect does anyway and can be said, the
position of NULL. -/
def direction (d : Dialect) (ascending nullsLast : Bool) : String :=
  (if !ascending then " DESC" else if d.profile.omitAscending then "" else " ASC") ++
    if nullsLast != d.profile.nullSorting.nullsLast ascending && d.has .nullsOrdering then
      if nullsLast then " NULLS LAST" else " NULLS FIRST"
    else ""

/-- The keyword of a join, if the dialect has it. -/
def joinKeyword (d : Dialect) : JoinType → Result String
  | .inner => .ok "INNER JOIN"
  | .left => .ok "LEFT OUTER JOIN"
  | .right => do
    require d .rightOuterJoin .join "RIGHT OUTER JOIN"
    return "RIGHT OUTER JOIN"
  | .full => do
    require d .fullOuterJoin .join "FULL OUTER JOIN"
    return "FULL OUTER JOIN"
  | .other name => refuse d .join (name ++ " JOIN")

/-- The FROM clause, if the statement has one or the dialect cannot do without. -/
def fromClause (d : Dialect) : Option Sql → Sql
  | some s => raw " FROM " ++ s
  | none => if d.profile.dummyTable = "" then [] else raw (" FROM " ++ d.profile.dummyTable)

/-- A statement from its rendered clauses. The limit is looked at first; its text stands in
front of the projection or at the end. -/
def select (d : Dialect) (limit : Option (Result Sql)) (list : Result Sql)
    (source filter grouping having order : Option (Result Sql)) : Result Sql := do
  let limit ← optional limit
  let list ← list
  let source ← optional source
  let filter ← optional filter
  let grouping ← optional grouping
  let having ← optional having
  let order ← optional order
  let onTop := d.profile.limitStyle = .top
  return raw "SELECT " ++ (if onTop then (limit.map (· ++ raw " ")).getD [] else []) ++ list ++
    fromClause d source ++ clause " WHERE " filter ++ clause " " grouping ++
    clause " HAVING " having ++ clause " " order ++ if onTop then [] else clause " " limit

/-- A projection from its rendered entries. -/
def selectList (d : Dialect) (star : Bool) (items : List (Result Sql)) : Result Sql :=
  if star then .ok (raw "*")
  else if items.isEmpty then .ok (raw (anyValue d))
  else return joinWith ", " (← inOrder items)

/-- An entry of a projection. -/
def selectItem (aliasName : String) (expr : Result Sql) : Result Sql := do
  let s ← expr
  return if aliasName = "" then s else s ++ raw " AS " ++ [.name aliasName]

/-- A join of two FROM items; a join on the right is put in parentheses. -/
def join (d : Dialect) (type : JoinType) (left : Result Sql) (rightKind : Kind)
    (right condition : Result Sql) : Result Sql := do
  let keyword ← joinKeyword d type
  let l ← left
  let r ← right
  let c ← condition
  return l ++ raw (" " ++ keyword ++ " ") ++ (if rightKind = .join then parens r else r) ++
    raw " ON " ++ c

def subSelect (d : Dialect) (statement : Result Sql) (aliasName : String) : Result Sql := do
  require d .derivedTables .subSelect "derived tables"
  let s ← statement
  return parens s ++ tableAlias d aliasName

/-- A sort key with its direction. -/
def sortKey (d : Dialect) (ascending nullsLast : Bool) (expr : Result Sql) : Result Sql := do
  let s ← expr
  return s ++ raw (direction d ascending nullsLast)

def orderBy (keys : List (Result Sql)) : Result Sql :=
  return raw "ORDER BY " ++ joinWith ", " (← inOrder keys)

def groupBy (exprs : List (Result Sql)) : Result Sql :=
  return raw "GROUP BY " ++ joinWith ", " (← inOrder exprs)

end Pushdown.Render

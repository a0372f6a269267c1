import Pushdown.Sql.Unsupported
import Pushdown.Syntax.Node

/-!
# Predicates

Conditions from their rendered operands.
-/

namespace Pushdown.Render

open Sql (raw joinWith parens)

/-- Conditions with a connective between them. Conditions that are themselves connected are put
in parentheses, so that the text groups exactly like the tree. -/
def connect (word : String) (conditions : List (Node × Sql)) : Sql :=
  joinWith (" " ++ word ++ " ") (conditions.map fun (n, s) =>
    if n.isConnective && conditions.length > 1 then parens s else s)

/-- A conjunction or disjunction of rendered conditions. -/
def connective (word : String) (operands : List Node) (conditions : List (Result Sql)) :
    Result Sql :=
  return connect word (operands.zip (← inOrder conditions))

def not (condition : Result Sql) : Result Sql :=
  return raw "NOT (" ++ (← condition) ++ raw ")"

def comparison (op : ComparisonOp) (left right : Result Sql) : Result Sql := do
  let l ← left
  let r ← right
  return l ++ raw (" " ++ op.symbol ++ " ") ++ r

def like (expr pattern : Result Sql) (escape : Option (Result Sql)) : Result Sql := do
  let e ← expr
  let p ← pattern
  let x ← optional escape
  return e ++ raw " LIKE " ++ p ++ clause " ESCAPE " x

def between (expr low high : Result Sql) : Result Sql := do
  let e ← expr
  let l ← low
  let h ← high
  return e ++ raw " BETWEEN " ++ l ++ raw " AND " ++ h

def inList (expr : Result Sql) (values : List (Result Sql)) : Result Sql := do
  let e ← expr
  let vs ← inOrder values
  return e ++ raw " IN (" ++ joinWith ", " vs ++ raw ")"

def inSubquery (d : Dialect) (expr statement : Result Sql) : Result Sql := do
  require d .inSubquery .inSubquery "IN with a sub-select"
  let e ← expr
  let s ← statement
  return e ++ raw " IN (" ++ s ++ raw ")"

def isNull (expr : Result Sql) : Result Sql := return (← expr) ++ raw " IS NULL"

def isNotNull (expr : Result Sql) : Result Sql := return (← expr) ++ raw " IS NOT NULL"

end Pushdown.Render

import Pushdown.Sql.Unsupported
import Pushdown.Syntax.Node

/-!
# Positions

A node stands either in a predicate position, where a condition is expected, or in an operand
position, where a value is expected. Dialects without truth values turn one into the other.
-/

namespace Pushdown.Render

open Sql (raw joinWith parens)

/-- A rendered node in a predicate position. Without truth values a constant or a column is no
condition and becomes a comparison. -/
def asPredicate (d : Dialect) (n : Node) (rendered : Result Sql) : Result Sql :=
  if d.has .booleanLiterals then rendered
  else
    match n with
    | .literal l =>
      if l.type = .bool then .ok (raw (if l.value = "true" then "1 = 1" else "1 = 0"))
      else rendered
    | .column c => if c.type.kind = .boolean then return (← rendered) ++ raw " = 1" else rendered
    | _ => rendered

/-- A rendered node in an operand position. A condition is put in parentheses; without truth
values it becomes a CASE that is 1, 0 or, where the condition is unknown, NULL. -/
def asOperand (d : Dialect) (n : Node) (rendered : Result Sql) : Result Sql := do
  let s ← rendered
  if n.isPredicate then
    if d.has .booleanLiterals then return parens s
    else return raw "CASE WHEN " ++ s ++ raw " THEN 1 WHEN NOT (" ++ s ++ raw ") THEN 0 END"
  else if n.kind = .select then return parens s
  else return s

/-- A rendered condition of a CASE branch, which is a value where the CASE has a basis. -/
def asCondition (d : Dialect) (hasBasis : Bool) (n : Node) (rendered : Result Sql) : Result Sql :=
  if hasBasis then asOperand d n rendered else asPredicate d n rendered

end Pushdown.Render

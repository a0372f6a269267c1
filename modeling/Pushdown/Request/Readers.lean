import Pushdown.Request.Catalog
import Pushdown.Request.Scope
import Pushdown.Request.TypeReader
import Pushdown.Syntax.Build

/-!
# Reading the parts of a statement

The objects of a statement nest: statements hold FROM items and expressions, and both may hold
statements. The functions below read one object and leave the objects inside it to `Readers`,
which reads everything that is nested one level deeper.
-/

namespace Pushdown

/-- How to read the objects inside an object. Scopes are ordered from the innermost outwards. -/
structure Readers where
  /-- A statement inside the given scopes. -/
  statement : Object → List Scope → Read Statement
  /-- A FROM item, which goes into a scope inside the given ones. -/
  fromItem : Object → (outer : List Scope) → Scope → Read (Node × Scope)
  expression : Object → List Scope → Read Node

namespace Readers

/-- The expression in a member. -/
def child (r : Readers) (o : Object) (key : String) (scopes : List Scope) : Read Node := do
  r.expression (← o.child key) scopes

/-- The expression in a member that may be absent. -/
def child? (r : Readers) (o : Object) (key : String) (scopes : List Scope) :
    Read (Option Node) := do
  if o.has key then return some (← r.child o key scopes) else return none

/-- The expressions in a list. -/
def children (r : Readers) (o : Object) (key : String) (scopes : List Scope) :
    Read (List Node) := do
  (← o.list key).mapM fun element => r.expression element scopes

/-- The arguments of a function. -/
def arguments (r : Readers) (o : Object) (scopes : List Scope) : Read (List Node) :=
  r.children o "arguments" scopes

/-- The only argument of a function. -/
def argument (r : Readers) (o : Object) (scopes : List Scope) : Read Node := do
  match ← r.arguments o scopes with
  | [arg] => return arg
  | args => o.refuseAt "arguments" (.argumentCount 1 args.length)

/-- One key of a sort order. It ascends unless it says otherwise, and NULL counts as the largest
value. -/
def sortKey (r : Readers) (scopes : List Scope) (o : Object) : Read (SortKey Node) := do
  let tag ← o.tag
  if tag ≠ "order_by_element" then o.refuseAt "type" (.notSortKey tag)
  let expr ← r.child o "expression" scopes
  let ascending ← o.boolean "isAscending" true
  let nullsLast ← o.boolean "nullsLast" ascending
  return { expr, ascending, nullsLast }

/-- A sort order that may be absent. -/
def order? (r : Readers) (o : Object) (scopes : List Scope) :
    Read (Option (List (SortKey Node))) := do
  if !o.has "orderBy" then return none
  let keys ← (← o.list "orderBy").mapM (r.sortKey scopes)
  some <$> Read.build (Build.orderBy (keys.map fun key => some key.expr)
    (keys.map (·.ascending)) (keys.map (·.nullsLast)))

end Readers

end Pushdown

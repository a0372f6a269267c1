import Pushdown.Request.Expression

/-!
# Reading statements

The FROM clause is read first, because every other clause refers to what it introduces. A join
condition sees what has been introduced up to its own join, and a derived table sees nothing of
the FROM clause that it stands in.
-/

namespace Pushdown

/-- Everything may be nested this deep. -/
def maxDepth : Nat := 128

namespace StatementReader

def joinTypes : List (String × JoinType) :=
  [("inner", .inner), ("left_outer", .left), ("right_outer", .right), ("full_outer", .full)]

/-! ## FROM items -/

def table (o : Object) (scope : Scope) : Read (Node × Scope) := do
  let name ← o.string "name"
  let aliasName ← o.stringOrEmpty "alias"
  let table ← Read.build (Build.table name aliasName)
  match scope.add? { table := name, aliasName } with
  | some scope => return (.table table, scope)
  | none => o.refuse (.tableTwice table.reference)

def join (r : Readers) (o : Object) (outer : List Scope) (scope : Scope) :
    Read (Node × Scope) := do
  let name ← o.string "join_type"
  match joinTypes.lookup name with
  | none => o.refuseAt "join_type" (.unknownJoin name)
  | some type =>
    let (left, scope) ← r.fromItem (← o.child "left") outer scope
    let (right, scope) ← r.fromItem (← o.child "right") outer scope
    let condition ← r.child o "condition" (scope :: outer)
    return (← Read.build (Build.join type left right condition), scope)

def derivedTable (r : Readers) (o : Object) (outer : List Scope) (scope : Scope) :
    Read (Node × Scope) := do
  let aliasName ← o.string "alias"
  let statement ← r.statement (← o.child "select") outer
  let item ← Read.build (Build.subSelect (some statement) aliasName)
  match scope.add? { table := aliasName, aliasName, derived := true } with
  | some scope => return (item, scope)
  | none => o.refuseAt "alias" (.tableTwice aliasName)

/-- A FROM item with the scope that it has been introduced into. -/
def fromItem (r : Readers) (o : Object) (outer : List Scope) (scope : Scope) :
    Read (Node × Scope) := do
  match ← o.tag with
  | "table" => table o scope
  | "join" => join r o outer scope
  | "sub_select" => derivedTable r o outer scope
  | tag => o.refuseAt "type" (.unknownFromItem tag)

/-! ## Clauses -/

/-- The projection: all columns if it is absent, and any value at all if it is empty. -/
def selectList (r : Readers) (o : Object) (scopes : List Scope) : Read (SelectList Node) := do
  if !o.has "selectList" then return { star := true }
  let items ← (← o.list "selectList").mapM fun element => do
    let expr ← r.expression element scopes
    let aliasName ← element.stringOrEmpty "alias"
    return SelectItem.mk (some expr) aliasName
  Read.build (Build.selectList items)

def aggregation (o : Object) : Read Aggregation := do
  let name ← o.stringOrEmpty "aggregationType"
  match Aggregation.ofName name with
  | .other name => o.refuseAt "aggregationType" (.unknownAggregation name)
  | aggregation => return aggregation

def grouping? (r : Readers) (o : Object) (scopes : List Scope) : Read (Option (List Node)) := do
  if !o.has "groupBy" then return none
  let exprs ← r.children o "groupBy" scopes
  some <$> Read.build (Build.groupBy (exprs.map some))

def limit? (o : Object) : Read (Option Limit) := do
  if !o.has "limit" then return none
  let o ← o.child "limit"
  if !o.has "numElements" then o.refuseAt "numElements" .missing
  let count ← o.integer "numElements" 0
  let offset ← o.integer "offset" 0
  some <$> Read.build (Build.limit count offset)

/-- A statement inside the given scopes. -/
def read (r : Readers) (o : Object) (outer : List Scope) : Read Statement := do
  let tag ← o.tag
  if tag ≠ "select" then o.refuseAt "type" (.notSelect tag)
  let (source, scope) ←
    if o.has "from" then
      (fun (node, scope) => (some node, scope)) <$> (do r.fromItem (← o.child "from") outer {})
    else pure (none, {})
  let scopes := scope :: outer
  let list ← selectList r o scopes
  let filter ← r.child? o "filter" scopes
  let aggregation ← aggregation o
  let grouping ← grouping? r o scopes
  let having ← r.child? o "having" scopes
  let order ← r.order? o scopes
  let limit ← limit? o
  Read.build (Build.select (some list) [.source source, .filter filter, .aggregation aggregation,
    .grouping grouping, .having having, .order order, .limit limit])

end StatementReader

namespace Readers

/-- Refuse everything, because there is no room for it. -/
def refusing : Readers where
  statement o _ := o.refuse (.tooDeep maxDepth)
  fromItem o _ _ := o.refuse (.tooDeep maxDepth)
  expression o _ := o.refuse (.tooDeep maxDepth)

/-- Read objects with at most `room` levels of objects. -/
def within (catalog : Catalog) : (room : Nat) → Readers
  | 0 => refusing
  | room + 1 =>
    let inner := within catalog room
    { statement := StatementReader.read inner
      fromItem := StatementReader.fromItem inner
      expression := Expression.read inner catalog }

end Readers

end Pushdown

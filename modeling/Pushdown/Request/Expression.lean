import Pushdown.Request.Readers

/-!
# Reading expressions

Columns, constants, predicates and functions, told apart by the tag of their object. A column is
looked up in the scopes around it, and takes its type from the catalog if the table is described
there.
-/

namespace Pushdown.Expression

/-- The operators that have a tag of their own. -/
def operators : List (String × ComparisonOp) := [
  ("predicate_equal", .equal), ("predicate_notequal", .notEqual), ("predicate_less", .less),
  ("predicate_lessequal", .lessEqual), ("predicate_greater", .greater),
  ("predicate_greaterequal", .greaterEqual)]

/-- The types of constants, each with a tag of its own. -/
def constants : List (String × LiteralType) := [
  ("literal_null", .null), ("literal_bool", .bool), ("literal_exactnumeric", .exactNumeric),
  ("literal_double", .double), ("literal_string", .string), ("literal_date", .date),
  ("literal_timestamp", .timestamp), ("literal_timestamputc", .timestampUtc),
  ("literal_interval", .interval)]

def bounds : List (String × BoundType) := [
  ("unbounded_preceding", .unboundedPreceding), ("preceding", .preceding),
  ("current_row", .currentRow), ("following", .following),
  ("unbounded_following", .unboundedFollowing)]

/-- The type of a column. A table that the catalog does not describe, and a derived table, may
have any column, and nothing is known of its type. -/
def columnType (catalog : Catalog) (o : Object) (item : FromItem) (name : String) :
    Read DataType :=
  if !item.derived && catalog.has item.table then
    match catalog.type? item.table name with
    | some type => .ok type
    | none => o.refuseAt "name" (.noSuchColumn item.table name)
  else .ok {}

def column (catalog : Catalog) (o : Object) (scopes : List Scope) : Read Node := do
  let name ← o.string "name"
  let table ← o.stringOrEmpty "tableName"
  let aliasName ← o.stringOrEmpty "tableAlias"
  if table = "" ∧ aliasName = "" then o.refuseAt "tableName" (.columnWithoutTable name)
  match Scope.resolve? scopes table aliasName with
  | none => o.refuse (.outOfScope name (if aliasName = "" then table else aliasName))
  | some item =>
    let type ← columnType catalog o item name
    let column ← Read.build (Build.column item.table name type)
    let index ← o.integer "columnNr" 0
    return .column { column with aliasName := item.aliasName, index }

def constant (o : Object) (type : LiteralType) : Read Node := do
  match type with
  | .null => .literal <$> Read.build (Build.literal .null "")
  | .interval =>
    let value ← o.scalar "value"
    let range ← DataType.read (← o.child "dataType")
    .literal <$> Read.build (Build.intervalLiteral value range)
  | type =>
    let value ← o.scalar "value"
    .literal <$> Read.build (Build.literal type value)

/-- A CASE, whose results may have one entry more than its conditions. -/
def case (r : Readers) (o : Object) (scopes : List Scope) : Read Node := do
  let basis ← r.child? o "basis" scopes
  let conditions ← r.arguments o scopes
  let results ← r.children o "results" scopes
  if results.length ≠ conditions.length ∧ results.length ≠ conditions.length + 1 then
    o.refuseAt "results" (.resultCount conditions.length results.length)
  let branches := conditions.zipWith (fun c result => Branch.mk (some c) (some result)) results
  Read.build (Build.case basis branches results[conditions.length]?)

def aggregate (r : Readers) (o : Object) (scopes : List Scope) : Read Node := do
  let name ← o.string "name"
  let distinct ← o.boolean "distinct" false
  let args ← r.arguments o scopes
  let filter ← r.child? o "filter" scopes
  Read.build (Build.aggregate name distinct filter (args.map some))

def groupConcat (r : Readers) (o : Object) (scopes : List Scope) : Read Node := do
  let distinct ← o.boolean "distinct" false
  let arg ← r.argument o scopes
  let order ← r.order? o scopes
  let separator ← if o.has "separator" then some <$> o.string "separator" else pure none
  Read.build (Build.groupConcat (some arg) distinct order separator)

/-- A bound of a frame; only bounds that count have an offset. -/
def frameBound (o : Object) : Read FrameBound := do
  let tag ← o.tag
  match bounds.lookup tag with
  | none => o.refuseAt "type" (.unknownBound tag)
  | some type =>
    let offset ← if type.takesOffset then o.integer "offset" 0 else pure 0
    return { type, offset }

def frame (o : Object) : Read Frame := do
  let units ← o.string "units"
  let start ← frameBound (← o.child "start")
  let stop ← if o.has "end" then some <$> (do frameBound (← o.child "end")) else pure none
  return { units := .ofName (Text.upper units), start, stop }

def window (r : Readers) (o : Object) (scopes : List Scope) : Read Node := do
  let name ← o.string "name"
  let args ← r.arguments o scopes
  let partition ← r.children o "partitionBy" scopes
  let order ← r.order? o scopes
  let bounds ← if o.has "frame" then some <$> (do frame (← o.child "frame")) else pure none
  Read.build (Build.window name (args.map some) (partition.map some) order bounds)

/-- An expression that is neither a comparison nor a constant. -/
def tagged (r : Readers) (catalog : Catalog) (o : Object) (scopes : List Scope) :
    (tag : String) → Read Node
  | "column" => column catalog o scopes
  | "predicate_and" => do
    Read.build (Build.and ((← r.children o "expressions" scopes).map some))
  | "predicate_or" => do
    Read.build (Build.or ((← r.children o "expressions" scopes).map some))
  | "predicate_not" => do Read.build (Build.not (← r.child o "expression" scopes))
  | "predicate_like" => do
    let expr ← r.child o "expression" scopes
    let pattern ← r.child o "pattern" scopes
    let escape ← r.child? o "escapeChar" scopes
    Read.build (Build.like expr pattern escape)
  | "predicate_like_regexp" => do
    let expr ← r.child o "expression" scopes
    let pattern ← r.child o "pattern" scopes
    Read.build (Build.regexpLike expr pattern)
  | "predicate_between" => do
    let expr ← r.child o "expression" scopes
    let low ← r.child o "left" scopes
    let high ← r.child o "right" scopes
    Read.build (Build.between expr low high)
  | "predicate_in_constlist" => do
    let expr ← r.child o "expression" scopes
    let values ← r.arguments o scopes
    Read.build (Build.inList expr (values.map some))
  | "predicate_in_subselect" => do
    let expr ← r.child o "expression" scopes
    let statement ← r.statement (← o.child "select") scopes
    Read.build (Build.inSubquery expr statement)
  | "predicate_is_null" => do Read.build (Build.isNull (← r.child o "expression" scopes))
  | "predicate_is_not_null" => do Read.build (Build.isNotNull (← r.child o "expression" scopes))
  | "function_scalar" => do
    let name ← o.string "name"
    let args ← r.arguments o scopes
    Read.build (Build.function name (args.map some))
  | "function_scalar_extract" => do
    let part ← o.string "toExtract"
    let arg ← r.argument o scopes
    Read.build (Build.extract (.ofName (Text.upper part)) arg)
  | "function_scalar_cast" => do
    let type ← DataType.read (← o.child "dataType")
    let arg ← r.argument o scopes
    Read.build (Build.cast arg type)
  | "function_scalar_case" => case r o scopes
  | "function_aggregate" => aggregate r o scopes
  | "function_aggregate_group_concat" => groupConcat r o scopes
  | "function_window" => window r o scopes
  | tag => o.refuseAt "type" (.unknownNode tag)

/-- An expression inside the given scopes. -/
def read (r : Readers) (catalog : Catalog) (o : Object) (scopes : List Scope) : Read Node := do
  let tag ← o.tag
  match operators.lookup tag, constants.lookup tag with
  | some op, _ =>
    let left ← r.child o "left" scopes
    let right ← r.child o "right" scopes
    Read.build (Build.comparison op left right)
  | none, some type => constant o type
  | none, none => tagged r catalog o scopes tag

end Pushdown.Expression

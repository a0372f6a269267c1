import Pushdown.Sql.Unsupported
import Pushdown.Syntax.Node

/-!
# Functions

Function calls, CASE, conversions, aggregates and window functions from their rendered arguments.
-/

namespace Pushdown.Render

open Sql (raw joinWith parens)

/-- Apply a function to its rendered arguments. A unary operator is meant to stand in a table with
its one argument, as it does in those of all built-in dialects. A table that leaves the number open
promises an argument: a call without one is refused here in the words for a wrong number. -/
def apply (d : Dialect) (kind : Kind) (spec : FunctionSpec) (args : List (Result Sql)) :
    Result Sql :=
  if 0 ≤ spec.arity ∧ (args.length : Int) ≠ spec.arity then
    refuse d kind spec.name s!"expects {spec.arity} arguments, got {args.length}"
  else
    match spec.style with
    | .keyword => .ok (raw spec.name)
    | .unary =>
      match args with
      | [] => refuse d kind spec.name "expects 1 arguments, got 0"
      | arg :: _ => return raw ("(" ++ spec.name ++ " ") ++ (← arg) ++ raw ")"
    | .operator => return parens (joinWith (" " ++ spec.name ++ " ") (← inOrder args))
    | .call | .other _ => return raw (spec.name ++ "(") ++ joinWith ", " (← inOrder args) ++ raw ")"

def function (d : Dialect) (name : String) (args : List (Result Sql)) : Result Sql :=
  match d.profile.functions.get? name with
  | none => refuse d .function ("function " ++ name)
  | some spec => apply d .function spec args

def regexpLike (d : Dialect) (expr pattern : Result Sql) : Result Sql := do
  require d .regexpLike .regexpLike "regular expression matching"
  apply d .regexpLike d.profile.regexp [expr, pattern]

/-- A branch of a CASE. Where the dialect has no CASE with a basis, the branch compares the
basis with its value. -/
def branch (d : Dialect) (basis : Option Sql) (condition result : Result Sql) : Result Sql := do
  let c ← condition
  let r ← result
  let c := match basis with
    | some b => if d.has .simpleCase then c else b ++ raw " = " ++ c
    | none => c
  return raw " WHEN " ++ c ++ raw " THEN " ++ r

/-- A CASE from its rendered parts; each branch is its condition and its result. -/
def case (d : Dialect) (basis : Option (Result Sql)) (branches : List (Result Sql × Result Sql))
    (otherwise : Option (Result Sql)) : Result Sql := do
  let basis ← optional basis
  let parts ← inOrder (branches.map fun (condition, result) => branch d basis condition result)
  let otherwise ← optional otherwise
  return raw "CASE" ++ (if d.has .simpleCase then clause " " basis else []) ++ parts.flatten ++
    clause " ELSE " otherwise ++ raw " END"

/-- The format and target type with which SQLite takes a field out of a date. -/
def strftimeFormat? : DatePart → Option (String × String)
  | .year => some ("%Y", "INTEGER")
  | .month => some ("%m", "INTEGER")
  | .day => some ("%d", "INTEGER")
  | .hour => some ("%H", "INTEGER")
  | .minute => some ("%M", "INTEGER")
  | .second => some ("%f", "REAL")
  | .other _ => none

def extract (d : Dialect) (part : DatePart) (arg : Result Sql) : Result Sql :=
  match d.extractStyle with
  | .standard => do
    require d .extract .extract "EXTRACT"
    return raw ("EXTRACT(" ++ part.name ++ " FROM ") ++ (← arg) ++ raw ")"
  | .datePart => return raw ("DATEPART(" ++ part.name ++ ", ") ++ (← arg) ++ raw ")"
  | .strftime =>
    match strftimeFormat? part with
    | none => refuse d .extract ("EXTRACT " ++ part.name)
    | some (format, type) =>
      return raw "CAST(STRFTIME(" ++ [.text format] ++ raw ", " ++ (← arg) ++
        raw (") AS " ++ type ++ ")")

def cast (d : Dialect) (type : DataType) (arg : Result Sql) : Result Sql :=
  match d.profile.typeName? type with
  | none => refuse d .cast ("cast to " ++ type.display)
  | some name => do
    let arg ← arg
    if d.profile.castStyle = .doubleColon then return parens arg ++ raw ("::" ++ name)
    else return raw "CAST(" ++ arg ++ raw (" AS " ++ name ++ ")")

/-- The arguments of an aggregate, which goes over whole rows if it has none. -/
def aggregateArguments (distinct : Bool) (args : List (Result Sql)) : Result Sql :=
  if args.isEmpty then .ok (raw "*")
  else return (if distinct then raw "DISTINCT " else []) ++ joinWith ", " (← inOrder args)

/-- The condition on the rows that an aggregate counts. -/
def filterClause (d : Dialect) : Option (Result Sql) → Result Sql
  | none => .ok []
  | some filter => do
    require d .aggregateFilter .aggregate "FILTER"
    return raw " FILTER (WHERE " ++ (← filter) ++ raw ")"

/-- An aggregate with its rendered arguments and filter. -/
def aggregate (d : Dialect) (name : String) (distinct : Bool) (args : List (Result Sql))
    (filter : Option (Result Sql)) : Result Sql :=
  match d.profile.aggregates.get? name with
  | none => refuse d .aggregate ("aggregate " ++ name)
  | some spelling => do
    let args ← aggregateArguments distinct args
    let filter ← filterClause d filter
    return raw (spelling ++ "(") ++ args ++ raw ")" ++ filter

/-- Refuse to join distinct texts where the dialect cannot. -/
def joinDistinct (d : Dialect) : Result Unit :=
  match d.concatStyle with
  | .stringAggWithin => refuse d .groupConcat "DISTINCT in GROUP_CONCAT"
  | .listagg since =>
    if d.notes.atLeast since then .ok ()
    else refuse d .groupConcat "DISTINCT in LISTAGG" "requires Oracle 19c"
  | _ => .ok ()

/-- The call that joins the texts of a group, with or without an order and a separator. -/
def concatCall (style : ConcatStyle) (distinct : Bool) (arg : Sql) (order : Option Sql)
    (separator : Option String) : Sql :=
  let value := (if distinct then raw "DISTINCT " else []) ++ arg
  let given : Option Sql := separator.map fun s => [.text s]
  let needed : Sql := given.getD [.text ","]
  match style with
  | .groupConcat =>
    raw "GROUP_CONCAT(" ++ value ++ clause " " order ++ clause " SEPARATOR " given ++ raw ")"
  | .groupConcatArgument =>
    raw "GROUP_CONCAT(" ++ value ++ clause ", " (if distinct then none else given) ++
      clause " " order ++ raw ")"
  | .stringAgg => raw "STRING_AGG(" ++ value ++ clause ", " given ++ clause " " order ++ raw ")"
  | .stringAggSeparator =>
    raw "STRING_AGG(" ++ value ++ raw ", " ++ needed ++ clause " " order ++ raw ")"
  | .stringAggWithin =>
    raw "STRING_AGG(" ++ value ++ raw ", " ++ needed ++ raw ")" ++
      (order.map fun s => raw " WITHIN GROUP (" ++ s ++ raw ")").getD []
  | .listagg _ =>
    raw "LISTAGG(" ++ value ++ raw ", " ++ needed ++ raw ") WITHIN GROUP (" ++
      order.getD (raw "ORDER BY NULL") ++ raw ")"

/-- The texts of a group joined to one. -/
def groupConcat (d : Dialect) (arg : Result Sql) (distinct : Bool) (order : Option (Result Sql))
    (separator : Option String) : Result Sql := do
  checkIf distinct (joinDistinct d)
  require d .groupConcat .groupConcat "GROUP_CONCAT"
  let arg ← arg
  checkIf order.isSome (require d .groupConcatOrderBy .groupConcat "ORDER BY in GROUP_CONCAT")
  let order ← optional order
  checkIf (d.concatStyle = .groupConcatArgument && distinct && separator.isSome &&
    separator != some ",") (refuse d .groupConcat "DISTINCT with a separator")
  return concatCall d.concatStyle distinct arg order separator

def frameBound (b : FrameBound) : String :=
  match b.type with
  | .unboundedPreceding => "UNBOUNDED PRECEDING"
  | .preceding => s!"{b.offset} PRECEDING"
  | .currentRow => "CURRENT ROW"
  | .following => s!"{b.offset} FOLLOWING"
  | .unboundedFollowing | .other _ => "UNBOUNDED FOLLOWING"

def frame (f : Frame) : String :=
  f.units.name ++ " " ++
    match f.stop with
    | none => frameBound f.start
    | some stop => "BETWEEN " ++ frameBound f.start ++ " AND " ++ frameBound stop

/-- A window function with its rendered arguments, partition and sort keys. -/
def window (d : Dialect) (name : String) (args partition : List (Result Sql))
    (order : Option (Result Sql)) (bounds : Option Frame) : Result Sql := do
  require d .windowFunctions .window "window functions"
  match d.profile.windowFunctions.get? name with
  | none => refuse d .window ("window function " ++ name)
  | some spelling =>
    let list ← inOrder args
    let list := if args.isEmpty && name == "COUNT" then raw "*" else joinWith ", " list
    let partition ← inOrder partition
    let order ← optional order
    let partitionBy :=
      if partition.isEmpty then [] else [raw "PARTITION BY " ++ joinWith ", " partition]
    let parts := partitionBy ++ order.toList ++ (bounds.map fun f => raw (frame f)).toList
    return raw (spelling ++ "(") ++ list ++ raw ") OVER (" ++ joinWith " " parts ++ raw ")"

end Pushdown.Render

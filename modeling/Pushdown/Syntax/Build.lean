import Pushdown.Syntax.Fault
import Pushdown.Syntax.LiteralFormat
import Pushdown.Syntax.Walk

/-!
# Building syntax trees

One function for each kind of node. A part that the caller does not have is `none`; a function
either returns a node that keeps the rules of its kind or says which rule is broken. What these
functions return is a well-formed tree as long as the parts are.
-/

namespace Pushdown.Build

open Text (upper lower)

abbrev Result := Except ConstructionError

def fail {α : Type} (kind : Kind) (fault : Fault) : Result α := .error ⟨kind.name, fault⟩

/-- All parts of a list, or the fault for the first one that is missing. -/
def present (kind : Kind) (fault : Nat → Fault) (parts : List (Option Node)) :
    Result (List Node) :=
  parts.zipIdx.mapM fun (part, index) =>
    match part with
    | some n => .ok n
    | none => fail kind (fault index)

/-- At least one part, and none missing. -/
def operands (kind : Kind) (parts : List (Option Node)) : Result (List Node) :=
  if parts.isEmpty then fail kind .noOperand else present kind .missingOperand parts

/-- Check that a type can be converted to or written as an interval. -/
def checkType (kind : Kind) (t : DataType) : Result Unit :=
  match t.kind with
  | .decimal =>
    if t.precision < 1 ∨ t.scale < 0 ∨ t.scale > t.precision then
      fail kind (.badDecimal t.precision t.scale)
    else .ok ()
  | .varchar | .char =>
    if t.size < 1 then fail kind (.sizeRequired t.kind.name) else .ok ()
  | .interval => if t.range.isKnown then .ok () else fail kind (.unknownRange t.range.name)
  | .double | .date | .timestamp | .boolean | .geometry | .hashtype => .ok ()
  | .other name => fail kind (.unsupportedType name)

/-! ## FROM items -/

def table (name aliasName : String) : Result Table :=
  if name = "" then fail .table .tableNameRequired else .ok { name, aliasName }

/-- The first table that a join condition refers to and that the join does not introduce.
Nested statements have names of their own and are not looked into. -/
def dangling? (visible : List String) (condition : Node) : Option String :=
  (condition.walk fun n => n.kind != .select).findSome? fun
    | .column c =>
      if c.qualifier ≠ "" ∧ ¬ visible.contains c.qualifier then some c.qualifier else none
    | _ => none

def join (type : JoinType) (left right condition : Option Node) : Result Node :=
  match type with
  | .other name => fail .join (.unknownJoinType name)
  | type =>
    match left, right with
    | some left, some right =>
      if left.isFromItem ∧ right.isFromItem then
        match condition with
        | some condition =>
          match dangling? (left.sources ++ right.sources) condition with
          | some table => fail .join (.joinConditionOutside table)
          | none => .ok (.join type left right condition)
        | none => fail .join .joinConditionRequired
      else fail .join .joinSidesNotFromItems
    | _, _ => fail .join .joinSidesRequired

def subSelect (statement : Option Statement) (aliasName : String) : Result Node :=
  match statement with
  | none => fail .subSelect .statementRequired
  | some statement =>
    if aliasName = "" then fail .subSelect .aliasRequired else .ok (.subSelect statement aliasName)

/-! ## Clauses -/

def selectList (items : List (SelectItem (Option Node))) : Result (SelectList Node) := do
  let exprs ← present .selectList .missingItem (items.map (·.expr))
  return { items := exprs.zipWith (fun expr item => ⟨expr, item.aliasName⟩) items }

def groupBy (exprs : List (Option Node)) : Result (List Node) := operands .groupBy exprs

/-- Sort keys from three lists of equal length. -/
def orderBy (exprs : List (Option Node)) (ascending nullsLast : List Bool) :
    Result (List (SortKey Node)) :=
  if exprs.isEmpty then fail .orderBy .noSortKey
  else if exprs.length ≠ ascending.length ∨ exprs.length ≠ nullsLast.length then
    fail .orderBy (.sortKeyLengths exprs.length ascending.length nullsLast.length)
  else do
    let exprs ← present .orderBy .missingSortKey exprs
    return exprs.zipWith (fun expr (ascending, nullsLast) => ⟨expr, ascending, nullsLast⟩)
      (ascending.zip nullsLast)

def limit (count offset : Int) : Result Limit :=
  if count < 0 then fail .limit (.negativeLimit count)
  else if offset < 0 then fail .limit (.negativeOffset offset)
  else .ok { count, offset }

/-- A clause that a statement may have. -/
inductive Clause where
  | source (item : Option Node)
  | filter (predicate : Option Node)
  | grouping (exprs : Option (List Node))
  | aggregation (aggregation : Aggregation)
  | having (predicate : Option Node)
  | order (keys : Option (List (SortKey Node)))
  | limit (limit : Option Limit)

/-- Put a clause into a statement. A grouping decides how the statement aggregates, whatever
else is asked for. -/
def Clause.apply (s : Statement) : Clause → Statement
  | source item => { s with source := item }
  | filter predicate => { s with filter := predicate }
  | grouping exprs =>
    { s with
      grouping := exprs
      aggregation := if exprs.isSome then .groupBy else s.aggregation }
  | aggregation a => if s.aggregation = .groupBy then s else { s with aggregation := a }
  | having predicate => { s with having := predicate }
  | order keys => { s with order := keys }
  | limit l => { s with limit := l }

/-- The rules that tie the clauses of a statement together. -/
def checkClauses (s : Statement) : Result Statement :=
  match s.source.filter fun item => !item.isFromItem with
  | some item => fail .select (.notFromItem item.kind)
  | none =>
    match s.aggregation with
    | .other name => fail .select (.unknownAggregation name)
    | _ =>
      if s.aggregation = .groupBy ∧ s.grouping.isNone then fail .select .groupingRequired
      else if s.having.isSome ∧ s.aggregation = .none then
        fail .select .havingWithoutAggregation
      else if s.source.isNone ∧ (s.filter.isSome ∨ s.grouping.isSome) then
        fail .select .clauseWithoutSource
      else .ok s

/-- A statement with the given clauses, put in one after the other. -/
def select (list : Option (SelectList Node)) (clauses : List Clause) : Result Statement :=
  match list with
  | none => fail .select .listRequired
  | some list => checkClauses (clauses.foldl Clause.apply { list })

/-! ## Predicates -/

def and (parts : List (Option Node)) : Result Node := return .and (← operands .and parts)

def or (parts : List (Option Node)) : Result Node := return .or (← operands .or parts)

def not : Option Node → Result Node
  | some operand => .ok (.not operand)
  | none => fail .not .operandRequired

def comparison (op : ComparisonOp) (left right : Option Node) : Result Node :=
  match op with
  | .other symbol => fail .comparison (.unknownOperator symbol)
  | op =>
    match left, right with
    | some left, some right => .ok (.comparison op left right)
    | _, _ => fail .comparison .comparisonOperands

def like (expr pattern escape : Option Node) : Result Node :=
  match expr, pattern with
  | some expr, some pattern => .ok (.like expr pattern escape)
  | _, _ => fail .like .likeOperands

def regexpLike (expr pattern : Option Node) : Result Node :=
  match expr, pattern with
  | some expr, some pattern => .ok (.regexpLike expr pattern)
  | _, _ => fail .regexpLike .regexpOperands

def between (expr low high : Option Node) : Result Node :=
  match expr, low, high with
  | some expr, some low, some high => .ok (.between expr low high)
  | _, _, _ => fail .between .betweenOperands

def inList (expr : Option Node) (values : List (Option Node)) : Result Node :=
  match expr with
  | some expr => return .inList expr (← operands .inList values)
  | none => fail .inList .inExpression

/-- Whether a projection has exactly one entry. -/
def projectsOne (list : SelectList Node) : Bool := !list.star && list.items.length == 1

def inSubquery (expr : Option Node) (statement : Option Statement) : Result Node :=
  match expr, statement with
  | some expr, some statement =>
    if projectsOne statement.list then .ok (.inSubquery expr statement)
    else fail .inSubquery .inProjection
  | _, _ => fail .inSubquery .inOperands

def isNull : Option Node → Result Node
  | some expr => .ok (.isNull expr)
  | none => fail .isNull .isNullOperand

def isNotNull : Option Node → Result Node
  | some expr => .ok (.isNotNull expr)
  | none => fail .isNotNull .isNotNullOperand

/-! ## Values -/

def column (table name : String) (type : DataType) : Result Column :=
  if name = "" then fail .column .columnNameRequired
  else if table = "" then fail .column (.columnWithoutTable name)
  else .ok { table, name, type }

/-- A constant whose text follows the format of its type. -/
def literal (type : LiteralType) (value : String) : Result Literal :=
  let checked (valid : Bool) (fault : String → Fault) : Result Literal :=
    if valid then .ok { type, value } else fail .literal (fault value)
  match type with
  | .null => .ok { type }
  | .bool =>
    if lower value = "true" ∨ lower value = "false" then .ok { type, value := lower value }
    else fail .literal (.badBoolean value)
  | .exactNumeric => checked (LiteralFormat.isExactNumeric value.toList) .badExactNumeric
  | .double =>
    if Text.isFiniteDouble value.toList then .ok { type, value }
    else if Text.namesNonFinite value.toList then fail .literal (.nonFiniteDouble value)
    else fail .literal (.badDouble value)
  | .string => .ok { type, value }
  | .date => checked (LiteralFormat.isDate value.toList) .badDate
  | .timestamp | .timestampUtc => checked (LiteralFormat.isTimestamp value.toList) .badTimestamp
  | .interval => fail .literal .intervalTypeRequired
  | .other name => fail .literal (.unknownLiteralType name)

/-- An interval constant such as `+2-01` with its range. -/
def intervalLiteral (value : String) (type : DataType) : Result Literal := do
  if type.kind ≠ .interval then fail .literal (.notIntervalType type.display)
  checkType .literal type
  if LiteralFormat.isInterval value.toList then .ok { type := .interval, value, interval := type }
  else fail .literal (.badInterval value)

def function (name : String) (args : List (Option Node)) : Result Node :=
  if name = "" then fail .function .functionNameRequired
  else return .function (upper name) (← present .function (.missingArgument · name) args)

def extract (part : DatePart) (arg : Option Node) : Result Node :=
  match part with
  | .other name => fail .extract (.unknownDatePart name)
  | part =>
    match arg with
    | some arg => .ok (.extract part arg)
    | none => fail .extract .extractArgument

def cast (arg : Option Node) (type : DataType) : Result Node :=
  match arg with
  | some arg => do
    checkType .cast type
    return .cast arg type
  | none => fail .cast .castArgument

/-- A CASE; without a basis its branches hold conditions, with one they hold values. -/
def case (basis : Option Node) (branches : List (Branch (Option Node)))
    (otherwise : Option Node) : Result Node :=
  if branches.isEmpty then fail .case .branchRequired
  else do
    let branches ← branches.zipIdx.mapM fun (branch, index) =>
      match branch.condition, branch.result with
      | some condition, some result => .ok (Branch.mk condition result)
      | _, _ => fail .case (.incompleteBranch index)
    return .case basis branches otherwise

/-- An aggregate; without arguments it counts rows. -/
def aggregate (name : String) (distinct : Bool) (filter : Option Node)
    (args : List (Option Node)) : Result Node :=
  let name := upper name
  if name = "" then fail .aggregate .aggregateNameRequired
  else if args.isEmpty ∧ name ≠ "COUNT" then fail .aggregate (.argumentRequired name)
  else if args.isEmpty ∧ distinct then fail .aggregate .countDistinctStar
  else return .aggregate name distinct (← present .aggregate (.missingArgument · name) args) filter

def groupConcat (arg : Option Node) (distinct : Bool) (order : Option (List (SortKey Node)))
    (separator : Option String) : Result Node :=
  match arg with
  | some arg => .ok (.groupConcat arg distinct order separator)
  | none => fail .groupConcat .groupConcatArgument

/-! ## Windows -/

def checkBound (b : FrameBound) : Result Unit :=
  match b.type with
  | .other code => fail .window (.unknownFrameBound code)
  | type => if type.takesOffset ∧ b.offset < 0 then fail .window .negativeFrameOffset else .ok ()

/-- The rules of a window frame. -/
def checkFrame (f : Frame) : Result Unit := do
  if let .other units := f.units then fail .window (.unknownFrameUnits units)
  checkBound f.start
  if f.start.type = .unboundedFollowing then fail .window .frameStartsAtEnd
  match f.stop with
  | none =>
    if f.start.type = .following then fail .window .singleBoundAfterCurrentRow else .ok ()
  | some stop =>
    checkBound stop
    if stop.type = .unboundedPreceding then fail .window .frameEndsAtStart
    else if stop.type.code < f.start.type.code then fail .window .frameReversed
    else .ok ()

/-- The window functions that need no argument. -/
def nullaryWindows : List String :=
  ["COUNT", "ROW_NUMBER", "RANK", "DENSE_RANK", "PERCENT_RANK", "CUME_DIST"]

def window (name : String) (args partition : List (Option Node))
    (order : Option (List (SortKey Node))) (frame : Option Frame) : Result Node := do
  let name := upper name
  if name = "" then fail .window .windowNameRequired
  if args.isEmpty ∧ ¬ nullaryWindows.contains name then fail .window (.argumentRequired name)
  let args ← present .window (.missingArgument · name) args
  let partition ← present .window .missingPartition partition
  if let some frame := frame then
    if order.isNone then fail .window .frameWithoutOrder
    checkFrame frame
  return .window name args partition order frame

end Pushdown.Build

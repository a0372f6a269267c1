import Pushdown.Syntax.DataType
import Pushdown.Syntax.Kind

/-!
# The syntax tree of a statement

A statement is a tree of nodes that no database dialect has had a say in yet. Clauses that
exist only inside another node (a projection, a list of sort keys, a row limit) have types of
their own, parametric in the node type, and also occur as nodes, because a dialect renders
them one by one.

`Node.children` lists the direct parts of a node in the order in which they are evaluated, and
`Node.walk` lists a tree from the root down.
-/

namespace Pushdown

/-- How two FROM items are joined. -/
inductive JoinType where
  | inner | left | right | full
  | other (name : String)
deriving DecidableEq, Inhabited

namespace JoinType

def name : JoinType → String
  | inner => "INNER"
  | left => "LEFT"
  | right => "RIGHT"
  | full => "FULL"
  | other name => name

def ofName (s : String) : JoinType :=
  ([inner, left, right, full].find? (·.name == s)).getD (other s)

end JoinType

/-- A binary comparison operator. -/
inductive ComparisonOp where
  | equal | notEqual | less | lessEqual | greater | greaterEqual
  | other (symbol : String)
deriving DecidableEq, Inhabited

namespace ComparisonOp

def symbol : ComparisonOp → String
  | equal => "="
  | notEqual => "<>"
  | less => "<"
  | lessEqual => "<="
  | greater => ">"
  | greaterEqual => ">="
  | other symbol => symbol

def ofSymbol (s : String) : ComparisonOp :=
  ([equal, notEqual, less, lessEqual, greater, greaterEqual].find? (·.symbol == s)).getD (other s)

end ComparisonOp

/-- The type of a constant. -/
inductive LiteralType where
  | null | bool | exactNumeric | double | string | date | timestamp | timestampUtc | interval
  | other (name : String)
deriving DecidableEq, Inhabited

namespace LiteralType

def name : LiteralType → String
  | null => "null"
  | bool => "bool"
  | exactNumeric => "exactnumeric"
  | double => "double"
  | string => "string"
  | date => "date"
  | timestamp => "timestamp"
  | timestampUtc => "timestamputc"
  | interval => "interval"
  | other name => name

def known : List LiteralType :=
  [null, bool, exactNumeric, double, string, date, timestamp, timestampUtc, interval]

def ofName (s : String) : LiteralType := (known.find? (·.name == s)).getD (other s)

end LiteralType

/-- A field of a date or timestamp. -/
inductive DatePart where
  | year | month | day | hour | minute | second
  | other (name : String)
deriving DecidableEq, Inhabited

namespace DatePart

def name : DatePart → String
  | year => "YEAR"
  | month => "MONTH"
  | day => "DAY"
  | hour => "HOUR"
  | minute => "MINUTE"
  | second => "SECOND"
  | other name => name

def ofName (s : String) : DatePart :=
  ([year, month, day, hour, minute, second].find? (·.name == s)).getD (other s)

end DatePart

/-- How a statement aggregates its rows. -/
inductive Aggregation where
  | none | singleGroup | groupBy
  | other (name : String)
deriving DecidableEq, Inhabited

namespace Aggregation

def name : Aggregation → String
  | none => ""
  | singleGroup => "single_group"
  | groupBy => "group_by"
  | other name => name

def ofName (s : String) : Aggregation :=
  ([none, singleGroup, groupBy].find? (·.name == s)).getD (other s)

end Aggregation

/-- What the offsets of a window frame count. -/
inductive FrameUnits where
  | rows | range
  | other (name : String)
deriving DecidableEq, Inhabited

namespace FrameUnits

def name : FrameUnits → String
  | rows => "ROWS"
  | range => "RANGE"
  | other name => name

def ofName (s : String) : FrameUnits := ([rows, range].find? (·.name == s)).getD (other s)

end FrameUnits

/-- One end of a window frame, from the earliest to the latest. -/
inductive BoundType where
  | unboundedPreceding | preceding | currentRow | following | unboundedFollowing
  | other (code : Int)
deriving DecidableEq, Inhabited

namespace BoundType

/-- The place of the bound in the order of the declaration. -/
def code : BoundType → Int
  | unboundedPreceding => 0
  | preceding => 1
  | currentRow => 2
  | following => 3
  | unboundedFollowing => 4
  | other code => code

def ofCode (n : Int) : BoundType :=
  ([unboundedPreceding, preceding, currentRow, following, unboundedFollowing].find?
    (·.code == n)).getD (other n)

/-- Whether the bound counts rows or values from the current row. -/
def takesOffset : BoundType → Bool
  | preceding | following => true
  | _ => false

end BoundType

structure FrameBound where
  type : BoundType
  offset : Int := 0
deriving DecidableEq, Inhabited

/-- A window frame; without `stop` it ends at the current row. -/
structure Frame where
  units : FrameUnits
  start : FrameBound
  stop : Option FrameBound := none
deriving DecidableEq, Inhabited

/-- A row limit; an offset of zero means that no rows are skipped. -/
structure Limit where
  count : Int
  offset : Int := 0
deriving DecidableEq, Inhabited

/-- A base table of a FROM clause. -/
structure Table where
  name : String
  aliasName : String := ""
deriving DecidableEq, Inhabited

/-- The name by which columns refer to the table. -/
def Table.reference (t : Table) : String := if t.aliasName ≠ "" then t.aliasName else t.name

/-- A column of a FROM item. -/
structure Column where
  table : String
  aliasName : String := ""
  name : String
  type : DataType := {}
  index : Int := 0
deriving DecidableEq, Inhabited

/-- The name by which the column refers to its FROM item. -/
def Column.qualifier (c : Column) : String := if c.aliasName ≠ "" then c.aliasName else c.table

/-- A constant with the text it was given as. -/
structure Literal where
  type : LiteralType
  value : String := ""
  interval : DataType := {}
deriving DecidableEq, Inhabited

/-- One entry of a projection. -/
structure SelectItem (ν : Type) where
  expr : ν
  aliasName : String := ""

/-- A projection: all columns, or the listed entries. An empty list asks for any value at all,
which is how existence is tested. -/
structure SelectList (ν : Type) where
  star : Bool := false
  items : List (SelectItem ν) := []

/-- One sort key of an ORDER BY clause. -/
structure SortKey (ν : Type) where
  expr : ν
  ascending : Bool
  nullsLast : Bool

/-- One WHEN branch of a CASE. -/
structure Branch (ν : Type) where
  condition : ν
  result : ν

/-- The clauses of a statement. -/
structure Select (ν : Type) where
  list : SelectList ν
  source : Option ν := none
  filter : Option ν := none
  grouping : Option (List ν) := none
  having : Option ν := none
  order : Option (List (SortKey ν)) := none
  limit : Option Limit := none
  aggregation : Aggregation := .none

/-- A node of the syntax tree. -/
inductive Node where
  | select (statement : Select Node)
  | selectList (list : SelectList Node)
  | table (table : Table)
  | join (type : JoinType) (left right condition : Node)
  | subSelect (statement : Select Node) (aliasName : String)
  | column (column : Column)
  | literal (literal : Literal)
  | and (operands : List Node)
  | or (operands : List Node)
  | not (operand : Node)
  | comparison (op : ComparisonOp) (left right : Node)
  | like (expr pattern : Node) (escape : Option Node)
  | regexpLike (expr pattern : Node)
  | between (expr low high : Node)
  | inList (expr : Node) (values : List Node)
  | inSubquery (expr : Node) (statement : Select Node)
  | isNull (expr : Node)
  | isNotNull (expr : Node)
  | function (name : String) (args : List Node)
  | extract (part : DatePart) (arg : Node)
  | cast (arg : Node) (type : DataType)
  | case (basis : Option Node) (branches : List (Branch Node)) (otherwise : Option Node)
  | aggregate (name : String) (distinct : Bool) (args : List Node) (filter : Option Node)
  | groupConcat (arg : Node) (distinct : Bool) (order : Option (List (SortKey Node)))
      (separator : Option String)
  | window (name : String) (args partition : List Node) (order : Option (List (SortKey Node)))
      (frame : Option Frame)
  | groupBy (exprs : List Node)
  | orderBy (keys : List (SortKey Node))
  | limit (limit : Limit)

/-- A complete statement. -/
abbrev Statement := Select Node

namespace Node

def kind : Node → Kind
  | select _ => .select
  | selectList _ => .selectList
  | table _ => .table
  | join .. => .join
  | subSelect .. => .subSelect
  | column _ => .column
  | literal _ => .literal
  | and _ => .and
  | or _ => .or
  | not _ => .not
  | comparison .. => .comparison
  | like .. => .like
  | regexpLike .. => .regexpLike
  | between .. => .between
  | inList .. => .inList
  | inSubquery .. => .inSubquery
  | isNull _ => .isNull
  | isNotNull _ => .isNotNull
  | function .. => .function
  | extract .. => .extract
  | cast .. => .cast
  | case .. => .case
  | aggregate .. => .aggregate
  | groupConcat .. => .groupConcat
  | window .. => .window
  | groupBy _ => .groupBy
  | orderBy _ => .orderBy
  | limit _ => .limit

/-- Whether the node may stand in a FROM clause. -/
def isFromItem (n : Node) : Bool :=
  match n.kind with
  | .table | .join | .subSelect => true
  | _ => false

/-- Whether the node is a condition rather than a value. -/
def isPredicate (n : Node) : Bool :=
  match n.kind with
  | .and | .or | .not | .comparison | .like | .regexpLike | .between | .inList | .inSubquery
  | .isNull | .isNotNull => true
  | _ => false

/-- Whether the node is a conjunction or disjunction. -/
def isConnective (n : Node) : Bool :=
  match n.kind with
  | .and | .or => true
  | _ => false

/-- The direct parts of a node, in the order in which they are evaluated. -/
def children : Node → List Node
  | select s =>
    selectList s.list :: (s.source.toList ++ s.filter.toList ++ (s.grouping.map groupBy).toList ++
      s.having.toList ++ (s.order.map orderBy).toList ++ (s.limit.map limit).toList)
  | selectList l => l.items.map (·.expr)
  | join _ left right condition => [left, right, condition]
  | subSelect s _ => [select s]
  | and operands | or operands => operands
  | not operand => [operand]
  | comparison _ left right => [left, right]
  | like expr pattern escape => expr :: pattern :: escape.toList
  | regexpLike expr pattern => [expr, pattern]
  | between expr low high => [expr, low, high]
  | inList expr values => expr :: values
  | inSubquery expr s => [expr, select s]
  | isNull expr | isNotNull expr => [expr]
  | function _ args => args
  | extract _ arg | cast arg _ => [arg]
  | case basis branches otherwise =>
    basis.toList ++ branches.flatMap (fun b => [b.condition, b.result]) ++ otherwise.toList
  | aggregate _ _ args filter => args ++ filter.toList
  | groupConcat arg _ order _ => arg :: (order.map orderBy).toList
  | window _ args partition order _ => args ++ partition ++ (order.map orderBy).toList
  | groupBy exprs => exprs
  | orderBy keys => keys.map (·.expr)
  | table _ | column _ | literal _ | limit _ => []

/-- The names by which columns may refer to what a FROM item introduces. -/
def sources : Node → List String
  | table t => [t.reference]
  | subSelect _ aliasName => [aliasName]
  | join _ left right _ => sources left ++ sources right
  | _ => []

end Node

end Pushdown

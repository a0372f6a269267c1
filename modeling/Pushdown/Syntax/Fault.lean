import Pushdown.Syntax.Kind
import Pushdown.Text.Quoted

/-!
# Why a node cannot be built

Each way in which the parts given for a node break one of its rules is a constructor of
`Fault`; the wording of all of them is in `Fault.text`.
-/

namespace Pushdown

/-- A broken rule of the syntax tree. -/
inductive Fault where
  -- A list that must not be empty is empty.
  | noOperand
  | missingOperand (index : Nat)
  | missingArgument (index : Nat) (function : String)
  | missingItem (index : Nat)
  | missingSortKey (index : Nat)
  | missingPartition (index : Nat)
  | incompleteBranch (index : Nat)
  -- Data types that cannot be the target of a cast or the type of an interval.
  | badDecimal (precision scale : Int)
  | sizeRequired (type : String)
  | unknownRange (range : String)
  | unsupportedType (type : String)
  -- Tables, joins and derived tables.
  | tableNameRequired
  | unknownJoinType (type : String)
  | joinSidesRequired
  | joinSidesNotFromItems
  | joinConditionRequired
  | joinConditionOutside (table : String)
  | statementRequired
  | aliasRequired
  -- Clauses of a statement.
  | listRequired
  | notFromItem (kind : Kind)
  | unknownAggregation (name : String)
  | groupingRequired
  | havingWithoutAggregation
  | clauseWithoutSource
  | noSortKey
  | sortKeyLengths (exprs directions nulls : Nat)
  | negativeLimit (count : Int)
  | negativeOffset (offset : Int)
  | nothingToGenerate
  -- Predicates.
  | operandRequired
  | unknownOperator (symbol : String)
  | comparisonOperands
  | likeOperands
  | regexpOperands
  | betweenOperands
  | inExpression
  | inOperands
  | inProjection
  | isNullOperand
  | isNotNullOperand
  -- Columns and constants.
  | columnNameRequired
  | columnWithoutTable (name : String)
  | badBoolean (value : String)
  | badExactNumeric (value : String)
  | badDouble (value : String)
  | nonFiniteDouble (value : String)
  | badDate (value : String)
  | badTimestamp (value : String)
  | badInterval (value : String)
  | intervalTypeRequired
  | notIntervalType (type : String)
  | unknownLiteralType (type : String)
  -- Functions.
  | functionNameRequired
  | unknownDatePart (part : String)
  | extractArgument
  | castArgument
  | branchRequired
  | aggregateNameRequired
  | argumentRequired (function : String)
  | countDistinctStar
  | groupConcatArgument
  | windowNameRequired
  -- Window frames.
  | frameWithoutOrder
  | unknownFrameUnits (units : String)
  | unknownFrameBound (code : Int)
  | negativeFrameOffset
  | frameStartsAtEnd
  | singleBoundAfterCurrentRow
  | frameEndsAtStart
  | frameReversed
  -- A rule of a caller's own.
  | other (text : String)
deriving DecidableEq, Inhabited

open Text (quoted) in
/-- The broken rule in words. -/
def Fault.text : Fault → String
  | noOperand => "at least one operand is required"
  | missingOperand index => s!"operand {index} is nil"
  | missingArgument index function => s!"argument {index} of {function} is nil"
  | missingItem index => s!"select item {index} has no expression"
  | missingSortKey index => s!"sort key {index} is nil"
  | missingPartition index => s!"partition expression {index} is nil"
  | incompleteBranch index => s!"WHEN clause {index} is incomplete"
  | badDecimal precision scale => s!"invalid DECIMAL precision {precision} and scale {scale}"
  | sizeRequired type => type ++ " requires a positive size"
  | unknownRange range => "unknown interval range " ++ quoted range
  | unsupportedType type => "unsupported data type " ++ quoted type
  | tableNameRequired => "table name is required"
  | unknownJoinType type => "unknown join type " ++ quoted type
  | joinSidesRequired => "join requires both sides"
  | joinSidesNotFromItems => "join sides must be tables, joins or sub-selects"
  | joinConditionRequired => "join requires a condition"
  | joinConditionOutside table =>
    "join condition references table " ++ quoted table ++ " outside of the join"
  | statementRequired => "sub-select requires a statement"
  | aliasRequired => "sub-select requires an alias"
  | listRequired => "select list is required"
  | notFromItem kind => "FROM must be a table, join or sub-select, got " ++ kind.name
  | unknownAggregation name => "unknown aggregation type " ++ quoted name
  | groupingRequired => "group_by aggregation requires a GROUP BY clause"
  | havingWithoutAggregation => "HAVING requires an aggregating statement"
  | clauseWithoutSource => "WHERE and GROUP BY require a FROM clause"
  | noSortKey => "at least one sort key is required"
  | sortKeyLengths exprs directions nulls =>
    s!"got {exprs} expressions, {directions} directions and {nulls} nulls flags"
  | negativeLimit count => s!"negative limit {count}"
  | negativeOffset offset => s!"negative offset {offset}"
  | nothingToGenerate => "no statement to generate"
  | operandRequired => "operand is required"
  | unknownOperator symbol => "unknown operator " ++ quoted symbol
  | comparisonOperands => "comparison requires two operands"
  | likeOperands => "LIKE requires an expression and a pattern"
  | regexpOperands => "REGEXP_LIKE requires an expression and a pattern"
  | betweenOperands => "BETWEEN requires an expression and two bounds"
  | inExpression => "IN requires an expression"
  | inOperands => "IN requires an expression and a sub-select"
  | inProjection => "sub-select must project exactly one column"
  | isNullOperand => "IS NULL requires an expression"
  | isNotNullOperand => "IS NOT NULL requires an expression"
  | columnNameRequired => "column name is required"
  | columnWithoutTable name => "column " ++ quoted name ++ " has no owning table"
  | badBoolean value => "invalid boolean " ++ quoted value
  | badExactNumeric value => "invalid exact numeric " ++ quoted value
  | badDouble value => "invalid double " ++ quoted value
  | nonFiniteDouble value => "non-finite double " ++ quoted value
  | badDate value => "invalid date " ++ quoted value
  | badTimestamp value => "invalid timestamp " ++ quoted value
  | badInterval value => "invalid interval " ++ quoted value
  | intervalTypeRequired => "interval literals require NewIntervalLiteral"
  | notIntervalType type => "interval literal requires an INTERVAL type, got " ++ type
  | unknownLiteralType type => "unknown literal type " ++ quoted type
  | functionNameRequired => "function name is required"
  | unknownDatePart part => "unknown date part " ++ quoted part
  | extractArgument => "extract requires an argument"
  | castArgument => "cast requires an argument"
  | branchRequired => "CASE requires at least one WHEN"
  | aggregateNameRequired => "aggregate name is required"
  | argumentRequired function => function ++ " requires an argument"
  | countDistinctStar => "COUNT(DISTINCT *) is not valid"
  | groupConcatArgument => "GROUP_CONCAT requires an argument"
  | windowNameRequired => "window function name is required"
  | frameWithoutOrder => "a window frame requires ORDER BY"
  | unknownFrameUnits units => "unknown frame units " ++ quoted units
  | unknownFrameBound code => s!"unknown frame bound {code}"
  | negativeFrameOffset => "frame offset must not be negative"
  | frameStartsAtEnd => "frame cannot start at UNBOUNDED FOLLOWING"
  | singleBoundAfterCurrentRow => "single-bound frame cannot start after the current row"
  | frameEndsAtStart => "frame cannot end at UNBOUNDED PRECEDING"
  | frameReversed => "frame end precedes frame start"
  | other text => text

/-- A fault together with the name of the kind of node that could not be built. -/
structure ConstructionError where
  node : String
  fault : Fault
deriving DecidableEq, Inhabited

def ConstructionError.message (e : ConstructionError) : String :=
  "invalid " ++ e.node ++ " node: " ++ e.fault.text

end Pushdown

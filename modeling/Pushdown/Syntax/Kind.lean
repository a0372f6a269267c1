/-!
# Kinds of syntax nodes

The closed list of node variants of a statement, with the names that errors and reports use.
-/

namespace Pushdown

/-- The variant of a syntax node. -/
inductive Kind where
  | select | selectList | table | join | subSelect | column | literal | and | or | not
  | comparison | like | regexpLike | between | inList | inSubquery | isNull | isNotNull
  | function | extract | cast | case | aggregate | groupConcat | window | groupBy | orderBy
  | limit
deriving DecidableEq, Inhabited

namespace Kind

def name : Kind → String
  | select => "select"
  | selectList => "select_list"
  | table => "table"
  | join => "join"
  | subSelect => "sub_select"
  | column => "column"
  | literal => "literal"
  | and => "and"
  | or => "or"
  | not => "not"
  | comparison => "comparison"
  | like => "like"
  | regexpLike => "regexp_like"
  | between => "between"
  | inList => "in_list"
  | inSubquery => "in_subquery"
  | isNull => "is_null"
  | isNotNull => "is_not_null"
  | function => "function"
  | extract => "extract"
  | cast => "cast"
  | case => "case"
  | aggregate => "aggregate"
  | groupConcat => "group_concat"
  | window => "window"
  | groupBy => "group_by"
  | orderBy => "order_by"
  | limit => "limit"

/-- All kinds, in the order in which they are declared. -/
def all : List Kind :=
  [select, selectList, table, join, subSelect, column, literal, and, or, not, comparison, like,
    regexpLike, between, inList, inSubquery, isNull, isNotNull, function, extract, cast, case,
    aggregate, groupConcat, window, groupBy, orderBy, limit]

def ofName? (s : String) : Option Kind := all.find? (·.name == s)

end Kind

end Pushdown

import Pushdown.Sql.Call
import Pushdown.Sql.Clause
import Pushdown.Sql.Position
import Pushdown.Sql.Predicate
import Pushdown.Syntax.Walk

/-!
# Rendering a syntax tree

A node is rendered from its rendered children, each in the position where it stands.
-/

namespace Pushdown

namespace Render

open Sql (raw)

/-- Put the text of a marked kind of node between the marks of the kind. -/
def mark (d : Dialect) (kind : Kind) (s : Sql) : Sql :=
  if d.marked.contains kind then raw (d.marks kind).1 ++ s ++ raw (d.marks kind).2 else s

/-- Render a node with everything below it. -/
def node (d : Dialect) (ctx : Context) (n : Node) : Result Sql :=
  mark d n.kind <$> match n with
    | .select ⟨list, source, filter, grouping, having, order, limit, _⟩ =>
      select d
        (match limit with
          | some l => some (node d ctx (.limit l))
          | none => none)
        (node d ctx (.selectList list))
        (match source with
          | some item => some (node d ctx item)
          | none => none)
        (match filter with
          | some p => some (asPredicate d p (node d ctx p))
          | none => none)
        (match grouping with
          | some exprs => some (node d ctx (.groupBy exprs))
          | none => none)
        (match having with
          | some p => some (asPredicate d p (node d ctx p))
          | none => none)
        (match order with
          | some keys => some (node d ctx (.orderBy keys))
          | none => none)
    | .selectList ⟨star, items⟩ =>
      selectList d star (items.map fun item =>
        selectItem item.aliasName (asOperand d item.expr (node d ctx item.expr)))
    | .table t => .ok (table d ctx t)
    | .join type left right condition =>
      join d type (node d ctx left) right.kind (node d ctx right)
        (asPredicate d condition (node d ctx condition))
    | .subSelect s aliasName => subSelect d (node d ctx (.select s)) aliasName
    | .column c => .ok (column d ctx c)
    | .literal l => literal d l
    | .and operands =>
      connective "AND" operands (operands.map fun o => asPredicate d o (node d ctx o))
    | .or operands =>
      connective "OR" operands (operands.map fun o => asPredicate d o (node d ctx o))
    | .not operand => not (asPredicate d operand (node d ctx operand))
    | .comparison op left right =>
      comparison op (asOperand d left (node d ctx left)) (asOperand d right (node d ctx right))
    | .like expr pattern escape =>
      like (asOperand d expr (node d ctx expr)) (asOperand d pattern (node d ctx pattern))
        (match escape with
          | some x => some (asOperand d x (node d ctx x))
          | none => none)
    | .regexpLike expr pattern =>
      regexpLike d (asOperand d expr (node d ctx expr)) (asOperand d pattern (node d ctx pattern))
    | .between expr low high =>
      between (asOperand d expr (node d ctx expr)) (asOperand d low (node d ctx low))
        (asOperand d high (node d ctx high))
    | .inList expr values =>
      inList (asOperand d expr (node d ctx expr))
        (values.map fun v => asOperand d v (node d ctx v))
    | .inSubquery expr s =>
      inSubquery d (asOperand d expr (node d ctx expr)) (node d ctx (.select s))
    | .isNull expr => isNull (asOperand d expr (node d ctx expr))
    | .isNotNull expr => isNotNull (asOperand d expr (node d ctx expr))
    | .function name args => function d name (args.map fun a => asOperand d a (node d ctx a))
    | .extract part arg => extract d part (asOperand d arg (node d ctx arg))
    | .cast arg type => cast d type (asOperand d arg (node d ctx arg))
    | .case basis branches otherwise =>
      case d
        (match basis with
          | some b => some (asOperand d b (node d ctx b))
          | none => none)
        (branches.map fun b =>
          (asCondition d basis.isSome b.condition (node d ctx b.condition),
            asOperand d b.result (node d ctx b.result)))
        (match otherwise with
          | some e => some (asOperand d e (node d ctx e))
          | none => none)
    | .aggregate name distinct args filter =>
      aggregate d name distinct (args.map fun a => asOperand d a (node d ctx a))
        (match filter with
          | some p => some (asPredicate d p (node d ctx p))
          | none => none)
    | .groupConcat arg distinct order separator =>
      groupConcat d (asOperand d arg (node d ctx arg)) distinct
        (match order with
          | some keys => some (node d ctx (.orderBy keys))
          | none => none)
        separator
    | .window name args partition order frame =>
      window d name (args.map fun a => asOperand d a (node d ctx a))
        (partition.map fun p => asOperand d p (node d ctx p))
        (match order with
          | some keys => some (node d ctx (.orderBy keys))
          | none => none)
        frame
    | .groupBy exprs => groupBy (exprs.map fun e => asOperand d e (node d ctx e))
    | .orderBy keys =>
      orderBy (keys.map fun key =>
        sortKey d key.ascending key.nullsLast (asOperand d key.expr (node d ctx key.expr)))
    | .limit l => limit d l
termination_by sizeOf n
decreasing_by all_goals exact Node.sizeOf_lt_of_mem_children (by
    grind [Node.children, Node.condition_mem_children, Node.result_mem_children])

end Render

namespace Dialect

/-- The statement text of a tree, or of nothing, which no dialect has a text for. -/
def generate (d : Dialect) (ctx : Context) : Option Node → Except Unsupported String
  | none => .error { dialect := d.id, node := "", feature := "empty statement" }
  | some n => return (← Render.node d ctx n).write d.profile ctx.quoteNames

end Dialect

end Pushdown

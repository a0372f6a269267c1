import Pushdown.Proofs.Syntax.Masking

/-!
# Rewriting a tree from the bottom up

`Node.rewrite f` puts `f n` in the place of every node `n` of a tree, after the same has been done
with everything below `n`. Statements inside of other nodes are rewritten clause by clause. One step
of the recursion is `Node.mapParts`, and proofs about rewriting use that step only.
-/

namespace Pushdown

/-! ## One level -/

variable (f : Node → Node)

def SelectItem.mapExpr (item : SelectItem Node) : SelectItem Node := ⟨f item.expr, item.aliasName⟩

def SelectList.mapExprs (l : SelectList Node) : SelectList Node :=
  ⟨l.star, l.items.map (·.mapExpr f)⟩

def SortKey.mapExpr (key : SortKey Node) : SortKey Node :=
  ⟨f key.expr, key.ascending, key.nullsLast⟩

def Branch.mapParts (b : Branch Node) : Branch Node := ⟨f b.condition, f b.result⟩

def Select.mapParts (s : Statement) : Statement :=
  { list := s.list.mapExprs f
    source := s.source.map f
    filter := s.filter.map f
    grouping := s.grouping.map (·.map f)
    having := s.having.map f
    order := s.order.map (·.map (·.mapExpr f))
    limit := s.limit
    aggregation := s.aggregation }

/-- The node with `f` applied to its parts, those of its clauses included. -/
def Node.mapParts : Node → Node
  | .select s => .select (s.mapParts f)
  | .selectList l => .selectList (l.mapExprs f)
  | .table t => .table t
  | .join type left right condition => .join type (f left) (f right) (f condition)
  | .subSelect s aliasName => .subSelect (s.mapParts f) aliasName
  | .column c => .column c
  | .literal l => .literal l
  | .and operands => .and (operands.map f)
  | .or operands => .or (operands.map f)
  | .not operand => .not (f operand)
  | .comparison op left right => .comparison op (f left) (f right)
  | .like expr pattern escape => .like (f expr) (f pattern) (escape.map f)
  | .regexpLike expr pattern => .regexpLike (f expr) (f pattern)
  | .between expr low high => .between (f expr) (f low) (f high)
  | .inList expr values => .inList (f expr) (values.map f)
  | .inSubquery expr s => .inSubquery (f expr) (s.mapParts f)
  | .isNull expr => .isNull (f expr)
  | .isNotNull expr => .isNotNull (f expr)
  | .function name args => .function name (args.map f)
  | .extract part arg => .extract part (f arg)
  | .cast arg type => .cast (f arg) type
  | .case basis branches otherwise =>
    .case (basis.map f) (branches.map (·.mapParts f)) (otherwise.map f)
  | .aggregate name distinct args filter => .aggregate name distinct (args.map f) (filter.map f)
  | .groupConcat arg distinct order separator =>
    .groupConcat (f arg) distinct (order.map (·.map (·.mapExpr f))) separator
  | .window name args partition order frame =>
    .window name (args.map f) (partition.map f) (order.map (·.map (·.mapExpr f))) frame
  | .groupBy exprs => .groupBy (exprs.map f)
  | .orderBy keys => .orderBy (keys.map (·.mapExpr f))
  | .limit l => .limit l

@[simp] theorem Node.kind_mapParts (n : Node) : (n.mapParts f).kind = n.kind := by
  cases n <;> rfl

/-! ## The whole tree -/

mutual

/-- The statement with its clauses rewritten. -/
def Select.rewrite (s : Statement) : Statement :=
  match s with
  | ⟨⟨star, items⟩, source, filter, grouping, having, order, limit, aggregation⟩ => {
      list := { star, items := items.map fun item => ⟨item.expr.rewrite, item.aliasName⟩ }
      source := match source with
        | some item => some item.rewrite
        | none => none
      filter := match filter with
        | some p => some p.rewrite
        | none => none
      grouping := match grouping with
        | some exprs => some (exprs.map fun e => e.rewrite)
        | none => none
      having := match having with
        | some p => some p.rewrite
        | none => none
      order := match order with
        | some keys => some (keys.map fun key => ⟨key.expr.rewrite, key.ascending, key.nullsLast⟩)
        | none => none
      limit
      aggregation }
termination_by sizeOf s
decreasing_by
  · have := List.sizeOf_lt_of_mem ‹item ∈ items›
    have := item.sizeOf_expr_lt
    simp
    omega
  · simp
    omega
  · simp
    omega
  · have := List.sizeOf_lt_of_mem ‹e ∈ exprs›
    simp
    omega
  · simp
    omega
  · have := List.sizeOf_lt_of_mem ‹key ∈ keys›
    have := key.sizeOf_expr_lt
    simp
    omega

/-- The tree with every node replaced, from the bottom up. -/
def Node.rewrite (n : Node) : Node :=
  f <| match n with
  | .select s => .select s.rewrite
  | .selectList ⟨star, items⟩ =>
    .selectList { star, items := items.map fun item => ⟨item.expr.rewrite, item.aliasName⟩ }
  | .table t => .table t
  | .join type left right condition => .join type left.rewrite right.rewrite condition.rewrite
  | .subSelect s aliasName => .subSelect s.rewrite aliasName
  | .column c => .column c
  | .literal l => .literal l
  | .and operands => .and (operands.map fun o => o.rewrite)
  | .or operands => .or (operands.map fun o => o.rewrite)
  | .not operand => .not operand.rewrite
  | .comparison op left right => .comparison op left.rewrite right.rewrite
  | .like expr pattern escape =>
    .like expr.rewrite pattern.rewrite (match escape with
      | some x => some x.rewrite
      | none => none)
  | .regexpLike expr pattern => .regexpLike expr.rewrite pattern.rewrite
  | .between expr low high => .between expr.rewrite low.rewrite high.rewrite
  | .inList expr values => .inList expr.rewrite (values.map fun v => v.rewrite)
  | .inSubquery expr s => .inSubquery expr.rewrite s.rewrite
  | .isNull expr => .isNull expr.rewrite
  | .isNotNull expr => .isNotNull expr.rewrite
  | .function name args => .function name (args.map fun a => a.rewrite)
  | .extract part arg => .extract part arg.rewrite
  | .cast arg type => .cast arg.rewrite type
  | .case basis branches otherwise =>
    .case
      (match basis with
        | some b => some b.rewrite
        | none => none)
      (branches.map fun b => ⟨b.condition.rewrite, b.result.rewrite⟩)
      (match otherwise with
        | some e => some e.rewrite
        | none => none)
  | .aggregate name distinct args filter =>
    .aggregate name distinct (args.map fun a => a.rewrite) (match filter with
      | some p => some p.rewrite
      | none => none)
  | .groupConcat arg distinct order separator =>
    .groupConcat arg.rewrite distinct
      (match order with
        | some keys => some (keys.map fun key => ⟨key.expr.rewrite, key.ascending, key.nullsLast⟩)
        | none => none)
      separator
  | .window name args partition order frame =>
    .window name (args.map fun a => a.rewrite) (partition.map fun p => p.rewrite)
      (match order with
        | some keys => some (keys.map fun key => ⟨key.expr.rewrite, key.ascending, key.nullsLast⟩)
        | none => none)
      frame
  | .groupBy exprs => .groupBy (exprs.map fun e => e.rewrite)
  | .orderBy keys =>
    .orderBy (keys.map fun key => ⟨key.expr.rewrite, key.ascending, key.nullsLast⟩)
  | .limit l => .limit l
termination_by sizeOf n
decreasing_by
  all_goals first
    | exact Node.sizeOf_lt_of_mem_children (by grind [Node.children, Node.condition_mem_children,
        Node.result_mem_children])
    | (simp <;> omega)
    | (have smaller := List.sizeOf_lt_of_mem ‹key ∈ keys›; have := key.sizeOf_expr_lt; simp; omega)

end

theorem Select.rewrite_eq (s : Statement) : s.rewrite f = s.mapParts (·.rewrite f) := by
  rcases s with ⟨⟨star, items⟩, source, filter, grouping, having, order, limit, aggregation⟩
  rw [Select.rewrite.eq_def]
  simp only [Select.mapParts, Select.mk.injEq, and_true]
  refine ⟨rfl, ?_, ?_, ?_, ?_, ?_⟩
  · cases source <;> rfl
  · cases filter <;> rfl
  · cases grouping <;> rfl
  · cases having <;> rfl
  · cases order <;> rfl

/-- One step of the recursion. -/
theorem Node.rewrite_eq (n : Node) : n.rewrite f = f (n.mapParts (·.rewrite f)) := by
  rw [rewrite.eq_def]
  congr 1
  cases n with
  | select s | subSelect s _ | inSubquery _ s => simp only [mapParts, Select.rewrite_eq]
  | like expr pattern escape => cases escape <;> rfl
  | case basis branches otherwise => cases basis <;> cases otherwise <;> rfl
  | aggregate name distinct args filter => cases filter <;> rfl
  | groupConcat arg distinct order separator => cases order <;> rfl
  | window name args partition order frame => cases order <;> rfl
  | _ => rfl

end Pushdown

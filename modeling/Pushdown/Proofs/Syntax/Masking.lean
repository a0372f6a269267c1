import Pushdown.Syntax.Walk

/-!
# Trees without the contents of names and texts

`Node.mask` puts a fixed name in the place of every name that is not empty and a fixed text in
the place of every string constant. Two trees have the same mask exactly if they differ in
nothing but the contents of such names and texts.
-/

namespace Pushdown

/-- A fixed name for all names that are not empty. -/
def maskName (name : String) : String := if name = "" then "" else "X"

@[simp] theorem maskName_eq_empty {name : String} : maskName name = "" ↔ name = "" := by
  simp [maskName]

def Table.mask (t : Table) : Table := { name := maskName t.name, aliasName := maskName t.aliasName }

def Column.mask (c : Column) : Column :=
  { c with table := maskName c.table, aliasName := maskName c.aliasName, name := maskName c.name }

/-- A fixed text for all string constants. -/
def Literal.mask (l : Literal) : Literal := if l.type = .string then { l with value := "" } else l

theorem SelectItem.sizeOf_expr_lt (item : SelectItem Node) : sizeOf item.expr < sizeOf item := by
  cases item
  simp
  omega

theorem SortKey.sizeOf_expr_lt (key : SortKey Node) : sizeOf key.expr < sizeOf key := by
  cases key
  simp
  omega

mutual

/-- The statement with fixed names and texts. -/
def Select.mask (s : Statement) : Statement :=
  match s with
  | ⟨⟨star, items⟩, source, filter, grouping, having, order, limit, aggregation⟩ => {
      list := { star, items := items.map fun item => ⟨item.expr.mask, maskName item.aliasName⟩ }
      source := match source with
        | some item => some item.mask
        | none => none
      filter := match filter with
        | some p => some p.mask
        | none => none
      grouping := match grouping with
        | some exprs => some (exprs.map fun e => e.mask)
        | none => none
      having := match having with
        | some p => some p.mask
        | none => none
      order := match order with
        | some keys => some (keys.map fun key => ⟨key.expr.mask, key.ascending, key.nullsLast⟩)
        | none => none
      limit
      aggregation }
termination_by sizeOf s
decreasing_by
  · have := List.sizeOf_lt_of_mem ‹item ∈ items›
    have := item.sizeOf_expr_lt
    simp
    omega
  · simp
    omega
  · simp
    omega
  · have := List.sizeOf_lt_of_mem ‹e ∈ exprs›
    simp
    omega
  · simp
    omega
  · have := List.sizeOf_lt_of_mem ‹key ∈ keys›
    have := key.sizeOf_expr_lt
    simp
    omega

/-- The tree with fixed names and texts. -/
def Node.mask (n : Node) : Node :=
  match n with
  | .select s => .select s.mask
  | .selectList ⟨star, items⟩ =>
    .selectList { star, items := items.map fun item => ⟨item.expr.mask, maskName item.aliasName⟩ }
  | .table t => .table t.mask
  | .join type left right condition => .join type left.mask right.mask condition.mask
  | .subSelect s aliasName => .subSelect s.mask (maskName aliasName)
  | .column c => .column c.mask
  | .literal l => .literal l.mask
  | .and operands => .and (operands.map fun o => o.mask)
  | .or operands => .or (operands.map fun o => o.mask)
  | .not operand => .not operand.mask
  | .comparison op left right => .comparison op left.mask right.mask
  | .like expr pattern escape =>
    .like expr.mask pattern.mask (match escape with
      | some x => some x.mask
      | none => none)
  | .regexpLike expr pattern => .regexpLike expr.mask pattern.mask
  | .between expr low high => .between expr.mask low.mask high.mask
  | .inList expr values => .inList expr.mask (values.map fun v => v.mask)
  | .inSubquery expr s => .inSubquery expr.mask s.mask
  | .isNull expr => .isNull expr.mask
  | .isNotNull expr => .isNotNull expr.mask
  | .function name args => .function name (args.map fun a => a.mask)
  | .extract part arg => .extract part arg.mask
  | .cast arg type => .cast arg.mask type
  | .case basis branches otherwise =>
    .case
      (match basis with
        | some b => some b.mask
        | none => none)
      (branches.map fun b => ⟨b.condition.mask, b.result.mask⟩)
      (match otherwise with
        | some e => some e.mask
        | none => none)
  | .aggregate name distinct args filter =>
    .aggregate name distinct (args.map fun a => a.mask) (match filter with
      | some p => some p.mask
      | none => none)
  | .groupConcat arg distinct order separator =>
    .groupConcat arg.mask distinct
      (match order with
        | some keys => some (keys.map fun key => ⟨key.expr.mask, key.ascending, key.nullsLast⟩)
        | none => none)
      (separator.map fun _ => ",")
  | .window name args partition order frame =>
    .window name (args.map fun a => a.mask) (partition.map fun p => p.mask)
      (match order with
        | some keys => some (keys.map fun key => ⟨key.expr.mask, key.ascending, key.nullsLast⟩)
        | none => none)
      frame
  | .groupBy exprs => .groupBy (exprs.map fun e => e.mask)
  | .orderBy keys =>
    .orderBy (keys.map fun key => ⟨key.expr.mask, key.ascending, key.nullsLast⟩)
  | .limit l => .limit l
termination_by sizeOf n
decreasing_by
  all_goals first
    | exact Node.sizeOf_lt_of_mem_children (by grind [Node.children, Node.condition_mem_children,
        Node.result_mem_children])
    | (simp <;> omega)
    | (have smaller := List.sizeOf_lt_of_mem ‹key ∈ keys›; have := key.sizeOf_expr_lt; simp; omega)

end

/-! ## The masks of clauses -/

def SelectItem.mask (item : SelectItem Node) : SelectItem Node :=
  ⟨item.expr.mask, maskName item.aliasName⟩

def SelectList.mask (l : SelectList Node) : SelectList Node := ⟨l.star, l.items.map (·.mask)⟩

def SortKey.mask (key : SortKey Node) : SortKey Node :=
  ⟨key.expr.mask, key.ascending, key.nullsLast⟩

def Branch.mask (b : Branch Node) : Branch Node := ⟨b.condition.mask, b.result.mask⟩

theorem Select.mask_eq (s : Statement) : s.mask =
    { list := s.list.mask
      source := s.source.map (·.mask)
      filter := s.filter.map (·.mask)
      grouping := s.grouping.map (·.map (·.mask))
      having := s.having.map (·.mask)
      order := s.order.map (·.map (·.mask))
      limit := s.limit
      aggregation := s.aggregation } := by
  rcases s with ⟨⟨star, items⟩, source, filter, grouping, having, order, limit, aggregation⟩
  rw [Select.mask.eq_def]
  simp only [Select.mk.injEq, and_true]
  refine ⟨rfl, ?_, ?_, ?_, ?_, ?_⟩
  · cases source <;> rfl
  · cases filter <;> rfl
  · cases grouping <;> rfl
  · cases having <;> rfl
  · cases order <;> rfl

namespace Node

theorem mask_selectList (l : SelectList Node) : (selectList l).mask = selectList l.mask := by
  rw [mask.eq_def]
  rfl

theorem mask_like (expr pattern : Node) (escape : Option Node) :
    (like expr pattern escape).mask = like expr.mask pattern.mask (escape.map (·.mask)) := by
  rw [mask.eq_def]
  cases escape <;> rfl

theorem mask_case (basis : Option Node) (branches : List (Branch Node))
    (otherwise : Option Node) :
    (case basis branches otherwise).mask =
      case (basis.map (·.mask)) (branches.map (·.mask)) (otherwise.map (·.mask)) := by
  rw [mask.eq_def]
  cases basis <;> cases otherwise <;> rfl

theorem mask_aggregate (name : String) (distinct : Bool) (args : List Node)
    (filter : Option Node) :
    (aggregate name distinct args filter).mask =
      aggregate name distinct (args.map (·.mask)) (filter.map (·.mask)) := by
  rw [mask.eq_def]
  cases filter <;> rfl

theorem mask_groupConcat (arg : Node) (distinct : Bool) (order : Option (List (SortKey Node)))
    (separator : Option String) :
    (groupConcat arg distinct order separator).mask =
      groupConcat arg.mask distinct (order.map (·.map (·.mask))) (separator.map fun _ => ",") := by
  rw [mask.eq_def]
  cases order <;> rfl

theorem mask_window (name : String) (args partition : List Node)
    (order : Option (List (SortKey Node))) (frame : Option Frame) :
    (window name args partition order frame).mask =
      window name (args.map (·.mask)) (partition.map (·.mask)) (order.map (·.map (·.mask)))
        frame := by
  rw [mask.eq_def]
  cases order <;> rfl

theorem mask_orderBy (keys : List (SortKey Node)) :
    (orderBy keys).mask = orderBy (keys.map (·.mask)) := by
  rw [mask.eq_def]
  rfl

@[simp] theorem kind_mask (n : Node) : n.mask.kind = n.kind := by
  cases n <;> rw [mask.eq_def] <;> rfl

end Node

end Pushdown

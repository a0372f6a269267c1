import Pushdown.Proofs.Outcome
import Pushdown.Sql.Render

/-!
# Rendering one node

The text of a node is what the standard rule of its kind makes of the texts of its children, with
the marks of the kind around it. In a dialect that marks no kind of node there is one equation for
each kind; proofs about statements use these and do not unfold the recursion.
-/

namespace Pushdown

namespace Sql

variable (p : Profile) (quoteNames : Bool)

@[simp] theorem write_nil : write p quoteNames [] = "" := rfl

@[simp] theorem write_cons (f : Fragment) (s : Sql) :
    write p quoteNames (f :: s) = f.write p quoteNames ++ s.write p quoteNames := by
  simp [write]

@[simp] theorem write_append (s t : Sql) :
    write p quoteNames (s ++ t) = s.write p quoteNames ++ t.write p quoteNames := by
  induction s with
  | nil => simp
  | cons f s ih => simp [ih, String.append_assoc]

theorem write_joinWith (separator : String) (parts : List Sql) :
    (joinWith separator parts).write p quoteNames =
      separator.intercalate (parts.map (write p quoteNames)) := by
  induction parts with
  | nil => rfl
  | cons part parts ih =>
    cases parts with
    | nil => simp [joinWith]
    | cons next parts =>
      rw [List.map_cons, List.map_cons, String.intercalate_cons_cons, ← List.map_cons, ← ih]
      simp [joinWith, List.intersperse, raw, Fragment.write, String.append_assoc]

end Sql

namespace Render

variable {d : Dialect} {ctx : Context}

/-- The standard rule of each kind of node. It renders the children by `visit`. -/
def defaultRule (d : Dialect) (ctx : Context) (visit : Node → Result Sql) : Node → Result Sql
  | .select s =>
    select d (s.limit.map fun l => visit (.limit l)) (visit (.selectList s.list))
      (s.source.map visit) (s.filter.map fun p => asPredicate d p (visit p))
      (s.grouping.map fun exprs => visit (.groupBy exprs))
      (s.having.map fun p => asPredicate d p (visit p))
      (s.order.map fun keys => visit (.orderBy keys))
  | .selectList l =>
    selectList d l.star
      (l.items.map fun item => selectItem item.aliasName (asOperand d item.expr (visit item.expr)))
  | .table t => .ok (table d ctx t)
  | .join type left right condition =>
    join d type (visit left) right.kind (visit right) (asPredicate d condition (visit condition))
  | .subSelect s aliasName => subSelect d (visit (.select s)) aliasName
  | .column c => .ok (column d ctx c)
  | .literal l => literal d l
  | .and operands =>
    connective "AND" operands (operands.map fun o => asPredicate d o (visit o))
  | .or operands => connective "OR" operands (operands.map fun o => asPredicate d o (visit o))
  | .not operand => not (asPredicate d operand (visit operand))
  | .comparison op left right =>
    comparison op (asOperand d left (visit left)) (asOperand d right (visit right))
  | .like expr pattern escape =>
    like (asOperand d expr (visit expr)) (asOperand d pattern (visit pattern))
      (escape.map fun x => asOperand d x (visit x))
  | .regexpLike expr pattern =>
    regexpLike d (asOperand d expr (visit expr)) (asOperand d pattern (visit pattern))
  | .between expr low high =>
    between (asOperand d expr (visit expr)) (asOperand d low (visit low))
      (asOperand d high (visit high))
  | .inList expr values =>
    inList (asOperand d expr (visit expr)) (values.map fun v => asOperand d v (visit v))
  | .inSubquery expr s => inSubquery d (asOperand d expr (visit expr)) (visit (.select s))
  | .isNull expr => isNull (asOperand d expr (visit expr))
  | .isNotNull expr => isNotNull (asOperand d expr (visit expr))
  | .function name args => function d name (args.map fun a => asOperand d a (visit a))
  | .extract part arg => extract d part (asOperand d arg (visit arg))
  | .cast arg type => cast d type (asOperand d arg (visit arg))
  | .case basis branches otherwise =>
    case d (basis.map fun b => asOperand d b (visit b))
      (branches.map fun b => (asCondition d basis.isSome b.condition (visit b.condition),
        asOperand d b.result (visit b.result)))
      (otherwise.map fun e => asOperand d e (visit e))
  | .aggregate name distinct args filter =>
    aggregate d name distinct (args.map fun a => asOperand d a (visit a))
      (filter.map fun p => asPredicate d p (visit p))
  | .groupConcat arg distinct order separator =>
    groupConcat d (asOperand d arg (visit arg)) distinct
      (order.map fun keys => visit (.orderBy keys)) separator
  | .window name args partition order frame =>
    window d name (args.map fun a => asOperand d a (visit a))
      (partition.map fun p => asOperand d p (visit p))
      (order.map fun keys => visit (.orderBy keys)) frame
  | .groupBy exprs => groupBy (exprs.map fun e => asOperand d e (visit e))
  | .orderBy keys =>
    orderBy (keys.map fun key =>
      sortKey d key.ascending key.nullsLast (asOperand d key.expr (visit key.expr)))
  | .limit l => limit d l

/-- A node is rendered by the standard rule of its kind, with the marks of the kind around it. -/
theorem node_eq (d : Dialect) (ctx : Context) (n : Node) :
    node d ctx n = mark d n.kind <$> defaultRule d ctx (node d ctx) n := by
  rw [node.eq_def]
  cases n with
  | select s =>
    rcases s with ⟨list, source, filter, grouping, having, order, limit, aggregation⟩
    simp only [defaultRule]
    congr 2
    · cases limit <;> rfl
    · cases source <;> rfl
    · cases filter <;> rfl
    · cases grouping <;> rfl
    · cases having <;> rfl
    · cases order <;> rfl
  | like expr pattern escape => cases escape <;> rfl
  | case basis branches otherwise => cases basis <;> cases otherwise <;> rfl
  | aggregate name distinct args filter => cases filter <;> rfl
  | groupConcat arg distinct order separator => cases order <;> rfl
  | window name args partition order frame => cases order <;> rfl
  | _ => rfl

/-- A standard rule asks `visit` for the texts of the children and for nothing else. -/
theorem defaultRule_congr {visit visit' : Node → Result Sql} {n : Node}
    (same : ∀ c ∈ n.children, visit c = visit' c) :
    defaultRule d ctx visit n = defaultRule d ctx visit' n := by
  have given {α : Type} {o : Option α} {g : α → Node} (below : ∀ a ∈ o, g a ∈ n.children)
      (f : α → Result Sql → Result Sql) :
      (o.map fun a => f a (visit (g a))) = o.map fun a => f a (visit' (g a)) :=
    Option.map_congr fun a inside => by rw [same _ (below a inside)]
  cases n with
  | table _ | column _ | literal _ | limit _ => rfl
  | select s =>
    simp only [Node.children] at given same
    have list := same (.selectList s.list) List.mem_cons_self
    have source := given (o := s.source) (g := id) (by simp +contextual) fun _ r => r
    have filter := given (o := s.filter) (g := id) (by simp +contextual) (asPredicate d)
    have grouping := given (o := s.grouping) (g := .groupBy) (by simp +contextual) fun _ r => r
    have having := given (o := s.having) (g := id) (by simp +contextual) (asPredicate d)
    have order := given (o := s.order) (g := .orderBy) (by simp +contextual) fun _ r => r
    have limit := given (o := s.limit) (g := .limit) (by simp +contextual) fun _ r => r
    simp only [id] at source filter having
    simp only [defaultRule, list, filter, grouping, having, order, limit]
    exact congrArg (select d _ _ · _ _ _ _) source
  | case basis branches otherwise =>
    have chosen : ∀ b ∈ branches,
        (asCondition d basis.isSome b.condition (visit b.condition),
          asOperand d b.result (visit b.result)) =
        (asCondition d basis.isSome b.condition (visit' b.condition),
          asOperand d b.result (visit' b.result)) := fun b member => by
      rw [same _ (Node.condition_mem_children member), same _ (Node.result_mem_children member)]
    simp only [Node.children] at given
    have start := given (o := basis) (g := id) (by simp +contextual) (asOperand d)
    have last := given (o := otherwise) (g := id) (by simp +contextual) (asOperand d)
    simp only [id] at start last
    simp only [defaultRule, start, last, List.map_congr_left chosen]
  | _ =>
    simp only [defaultRule, Node.children] at same ⊢
    grind [List.map_congr_left, Option.map_congr]

theorem node_of_unmarked (unmarked : d.marked = []) (n : Node) :
    node d ctx n = defaultRule d ctx (node d ctx) n := by
  have unchanged : mark d n.kind = id := by
    funext s
    simp [mark, unmarked]
  rw [node_eq, unchanged, id_map]

section

variable (unmarked : d.marked = [])

include unmarked

theorem node_select (s : Statement) :
    node d ctx (.select s) =
      select d (s.limit.map fun l => node d ctx (.limit l)) (node d ctx (.selectList s.list))
        (s.source.map (node d ctx)) (s.filter.map fun p => asPredicate d p (node d ctx p))
        (s.grouping.map fun exprs => node d ctx (.groupBy exprs))
        (s.having.map fun p => asPredicate d p (node d ctx p))
        (s.order.map fun keys => node d ctx (.orderBy keys)) :=
  node_of_unmarked unmarked _

theorem node_selectList (l : SelectList Node) :
    node d ctx (.selectList l) =
      selectList d l.star (l.items.map fun item =>
        selectItem item.aliasName (asOperand d item.expr (node d ctx item.expr))) :=
  node_of_unmarked unmarked _

theorem node_table (t : Table) : node d ctx (.table t) = .ok (table d ctx t) :=
  node_of_unmarked unmarked _

theorem node_join (type : JoinType) (left right condition : Node) :
    node d ctx (.join type left right condition) =
      join d type (node d ctx left) right.kind (node d ctx right)
        (asPredicate d condition (node d ctx condition)) :=
  node_of_unmarked unmarked _

theorem node_subSelect (s : Statement) (aliasName : String) :
    node d ctx (.subSelect s aliasName) = subSelect d (node d ctx (.select s)) aliasName :=
  node_of_unmarked unmarked _

theorem node_column (c : Column) : node d ctx (.column c) = .ok (column d ctx c) :=
  node_of_unmarked unmarked _

theorem node_literal (l : Literal) : node d ctx (.literal l) = literal d l :=
  node_of_unmarked unmarked _

theorem node_and (operands : List Node) :
    node d ctx (.and operands) =
      connective "AND" operands (operands.map fun o => asPredicate d o (node d ctx o)) :=
  node_of_unmarked unmarked _

theorem node_or (operands : List Node) :
    node d ctx (.or operands) =
      connective "OR" operands (operands.map fun o => asPredicate d o (node d ctx o)) :=
  node_of_unmarked unmarked _

theorem node_not (operand : Node) :
    node d ctx (.not operand) = not (asPredicate d operand (node d ctx operand)) :=
  node_of_unmarked unmarked _

theorem node_comparison (op : ComparisonOp) (left right : Node) :
    node d ctx (.comparison op left right) =
      comparison op (asOperand d left (node d ctx left))
        (asOperand d right (node d ctx right)) :=
  node_of_unmarked unmarked _

theorem node_like (expr pattern : Node) (escape : Option Node) :
    node d ctx (.like expr pattern escape) =
      like (asOperand d expr (node d ctx expr)) (asOperand d pattern (node d ctx pattern))
        (escape.map fun x => asOperand d x (node d ctx x)) :=
  node_of_unmarked unmarked _

theorem node_regexpLike (expr pattern : Node) :
    node d ctx (.regexpLike expr pattern) =
      regexpLike d (asOperand d expr (node d ctx expr))
        (asOperand d pattern (node d ctx pattern)) :=
  node_of_unmarked unmarked _

theorem node_between (expr low high : Node) :
    node d ctx (.between expr low high) =
      between (asOperand d expr (node d ctx expr)) (asOperand d low (node d ctx low))
        (asOperand d high (node d ctx high)) :=
  node_of_unmarked unmarked _

theorem node_inList (expr : Node) (values : List Node) :
    node d ctx (.inList expr values) =
      inList (asOperand d expr (node d ctx expr))
        (values.map fun v => asOperand d v (node d ctx v)) :=
  node_of_unmarked unmarked _

theorem node_inSubquery (expr : Node) (s : Statement) :
    node d ctx (.inSubquery expr s) =
      inSubquery d (asOperand d expr (node d ctx expr)) (node d ctx (.select s)) :=
  node_of_unmarked unmarked _

theorem node_isNull (expr : Node) :
    node d ctx (.isNull expr) = isNull (asOperand d expr (node d ctx expr)) :=
  node_of_unmarked unmarked _

theorem node_isNotNull (expr : Node) :
    node d ctx (.isNotNull expr) = isNotNull (asOperand d expr (node d ctx expr)) :=
  node_of_unmarked unmarked _

theorem node_function (name : String) (args : List Node) :
    node d ctx (.function name args) =
      function d name (args.map fun a => asOperand d a (node d ctx a)) :=
  node_of_unmarked unmarked _

theorem node_extract (part : DatePart) (arg : Node) :
    node d ctx (.extract part arg) = extract d part (asOperand d arg (node d ctx arg)) :=
  node_of_unmarked unmarked _

theorem node_cast (arg : Node) (type : DataType) :
    node d ctx (.cast arg type) = cast d type (asOperand d arg (node d ctx arg)) :=
  node_of_unmarked unmarked _

theorem node_case (basis : Option Node) (branches : List (Branch Node))
    (otherwise : Option Node) :
    node d ctx (.case basis branches otherwise) =
      case d (basis.map fun b => asOperand d b (node d ctx b))
        (branches.map fun b =>
          (asCondition d basis.isSome b.condition (node d ctx b.condition),
            asOperand d b.result (node d ctx b.result)))
        (otherwise.map fun e => asOperand d e (node d ctx e)) :=
  node_of_unmarked unmarked _

theorem node_aggregate (name : String) (distinct : Bool) (args : List Node)
    (filter : Option Node) :
    node d ctx (.aggregate name distinct args filter) =
      aggregate d name distinct (args.map fun a => asOperand d a (node d ctx a))
        (filter.map fun p => asPredicate d p (node d ctx p)) :=
  node_of_unmarked unmarked _

theorem node_groupConcat (arg : Node) (distinct : Bool) (order : Option (List (SortKey Node)))
    (separator : Option String) :
    node d ctx (.groupConcat arg distinct order separator) =
      groupConcat d (asOperand d arg (node d ctx arg)) distinct
        (order.map fun keys => node d ctx (.orderBy keys)) separator :=
  node_of_unmarked unmarked _

theorem node_window (name : String) (args partition : List Node)
    (order : Option (List (SortKey Node))) (frame : Option Frame) :
    node d ctx (.window name args partition order frame) =
      window d name (args.map fun a => asOperand d a (node d ctx a))
        (partition.map fun p => asOperand d p (node d ctx p))
        (order.map fun keys => node d ctx (.orderBy keys)) frame :=
  node_of_unmarked unmarked _

theorem node_groupBy (exprs : List Node) :
    node d ctx (.groupBy exprs) =
      groupBy (exprs.map fun e => asOperand d e (node d ctx e)) :=
  node_of_unmarked unmarked _

theorem node_orderBy (keys : List (SortKey Node)) :
    node d ctx (.orderBy keys) =
      orderBy (keys.map fun key =>
        sortKey d key.ascending key.nullsLast (asOperand d key.expr (node d ctx key.expr))) :=
  node_of_unmarked unmarked _

theorem node_limit (l : Limit) : node d ctx (.limit l) = limit d l :=
  node_of_unmarked unmarked _

end

end Render

end Pushdown

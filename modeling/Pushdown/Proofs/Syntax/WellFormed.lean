import Pushdown.Proofs.Outcome
import Pushdown.Syntax.Build

/-!
# Well-formed trees

`Node.KeepsRules` says of one node what its construction checks, and a tree is well-formed if all
its nodes keep their rules. Each `Build` function returns a node that keeps its rules and has no
children but the parts that it was given, so whatever is built from well-formed parts is
well-formed.

Construction does not look at the kinds of operands. `Node.Placed` says that every operand is a
value or a condition, which holds of the trees that are read from requests.
-/

namespace Pushdown

/-- The text of the constant follows the format of its type. -/
def Literal.KeepsFormat (l : Literal) : Prop :=
  match l.type with
  | .null => l.value = ""
  | .bool => l.value = "true" ∨ l.value = "false"
  | .exactNumeric => LiteralFormat.isExactNumeric l.value.toList
  | .double => Text.isFiniteDouble l.value.toList
  | .string => True
  | .date => LiteralFormat.isDate l.value.toList
  | .timestamp | .timestampUtc => LiteralFormat.isTimestamp l.value.toList
  | .interval =>
    LiteralFormat.isInterval l.value.toList ∧ l.interval.kind = .interval ∧ l.interval.range.isKnown
  | .other _ => False

/-- The rules that tie the clauses of a statement together. -/
structure Select.KeepsRules (s : Statement) : Prop where
  source : ∀ item ∈ s.source, item.isFromItem
  aggregation : ∀ name, s.aggregation ≠ .other name
  grouping : s.aggregation = .groupBy ↔ s.grouping.isSome
  having : s.having.isSome → s.aggregation ≠ .none
  clauses : s.source = none → s.filter = none ∧ s.grouping = none

/-- The clauses of a statement behind its FROM clause. -/
def Select.after (s : Statement) : List Node :=
  s.filter.toList ++ (s.grouping.map Node.groupBy).toList ++ s.having.toList ++
    (s.order.map Node.orderBy).toList ++ (s.limit.map Node.limit).toList

/-- Whether nodes of the kind are values or conditions. -/
def Kind.isExpression : Kind → Bool
  | select | selectList | table | join | subSelect | groupBy | orderBy | limit => false
  | _ => true

namespace Node

/-- Whether the node is a value or a condition. -/
def isExpression (n : Node) : Bool := n.kind.isExpression

/-- What the construction of a node checks. -/
def KeepsRules : Node → Prop
  | select s => s.KeepsRules
  | selectList l => l.star → l.items = []
  | table t => t.name ≠ ""
  | join type left right condition =>
    (∀ name, type ≠ .other name) ∧ left.isFromItem ∧ right.isFromItem ∧
      Build.dangling? (left.sources ++ right.sources) condition = none
  | subSelect _ aliasName => aliasName ≠ ""
  | column c => c.name ≠ "" ∧ c.table ≠ ""
  | literal l => l.KeepsFormat
  | and operands | or operands | groupBy operands => operands ≠ []
  | comparison op _ _ => ∀ symbol, op ≠ .other symbol
  | inList _ values => values ≠ []
  | inSubquery _ s => Build.projectsOne s.list
  | function name _ => ∃ given, name = Text.upper given
  | extract part _ => ∀ name, part ≠ .other name
  | cast _ type => Build.checkType .cast type = .ok ()
  | case _ branches _ => branches ≠ []
  | aggregate name distinct args _ =>
    (∃ given, name = Text.upper given) ∧ (args = [] → name = "COUNT" ∧ distinct = false)
  | window name args _ order frame =>
    (∃ given, name = Text.upper given) ∧ (args = [] → name ∈ Build.nullaryWindows) ∧
      ∀ f ∈ frame, order.isSome ∧ Build.checkFrame f = .ok ()
  | orderBy keys => keys ≠ []
  | limit l => 0 ≤ l.count ∧ 0 ≤ l.offset
  | not _ | like .. | regexpLike .. | between .. | isNull _ | isNotNull _ | groupConcat .. => True

/-- The children of a node that stand where a value or a condition is expected. -/
def operands : Node → List Node
  | select s => s.filter.toList ++ s.having.toList
  | join _ _ _ condition => [condition]
  | inSubquery expr _ => [expr]
  | groupConcat arg _ _ _ => [arg]
  | window _ args partition _ _ => args ++ partition
  | subSelect .. => []
  | n => n.children

/-- Every operand is a value or a condition. -/
def Placed (n : Node) : Prop := ∀ c ∈ n.operands, c.isExpression

theorem mem_children_select {s : Statement} {c : Node} :
    c ∈ (select s).children ↔ c = selectList s.list ∨ c ∈ s.source ∨ c ∈ s.after := by
  simp only [children, Select.after, List.mem_cons, List.mem_append, Option.mem_toList,
    Option.mem_def, or_assoc]

/-! ## Properties of all nodes of a tree -/

/-- Every node of the tree has the property. -/
def Everywhere (P : Node → Prop) (n : Node) : Prop := ∀ m ∈ n.nodes, P m

theorem nodes_eq (n : Node) : n.nodes = n :: n.children.flatMap nodes := by
  rw [nodes, walk_eq]
  rfl

theorem mem_nodes_self (n : Node) : n ∈ n.nodes := by
  rw [nodes_eq]
  exact List.mem_cons_self ..

theorem mem_nodes_of_mem_children {c m n : Node} (h : c ∈ n.children) (member : m ∈ c.nodes) :
    m ∈ n.nodes := by
  rw [nodes_eq]
  exact List.mem_cons_of_mem _ (List.mem_flatMap.mpr ⟨c, h, member⟩)

/-- A property holds everywhere in a tree if it holds of the root and everywhere in the trees
below it. -/
theorem everywhere_iff {P : Node → Prop} {n : Node} :
    n.Everywhere P ↔ P n ∧ ∀ c ∈ n.children, c.Everywhere P := by
  constructor
  · intro all
    exact ⟨all n (mem_nodes_self n), fun c child m member =>
      all m (mem_nodes_of_mem_children child member)⟩
  · rintro ⟨root, below⟩ m member
    rw [nodes_eq, List.mem_cons, List.mem_flatMap] at member
    rcases member with rfl | ⟨c, child, member⟩
    · exact root
    · exact below c child m member

theorem Everywhere.root {P : Node → Prop} {n : Node} (h : n.Everywhere P) : P n :=
  (everywhere_iff.mp h).1

theorem Everywhere.child {P : Node → Prop} {c n : Node} (h : n.Everywhere P)
    (child : c ∈ n.children) : c.Everywhere P :=
  (everywhere_iff.mp h).2 c child

/-- Every node keeps the rules of its construction. -/
def WellFormed (n : Node) : Prop := n.Everywhere KeepsRules

/-- The tree is well-formed and every operand in it is a value or a condition. -/
def WellPlaced (n : Node) : Prop := n.Everywhere fun m => m.KeepsRules ∧ m.Placed

theorem wellPlaced_iff {n : Node} :
    n.WellPlaced ↔ (n.KeepsRules ∧ n.Placed) ∧ ∀ c ∈ n.children, c.WellPlaced := everywhere_iff

theorem WellPlaced.column {c : Column} (named : c.name ≠ "" ∧ c.table ≠ "") :
    (Node.column c).WellPlaced :=
  wellPlaced_iff.mpr ⟨⟨named, by simp [Placed, operands, children]⟩, by simp [children]⟩

/-- A connective or a negation of well-formed operands is well-formed. -/
theorem WellPlaced.connective {n : Node} (kind : n.kind ∈ [.and, .or, .not])
    (nonempty : n.children ≠ []) (each : ∀ o ∈ n.children, o.WellPlaced ∧ o.isExpression) :
    n.WellPlaced := by
  refine wellPlaced_iff.mpr ⟨⟨?_, ?_⟩, fun o member => (each o member).1⟩
  · cases n <;> simp_all [Node.kind, KeepsRules, children]
  · cases n <;> simp_all [Node.kind, Placed, operands, children]

theorem WellPlaced.wellFormed {n : Node} (h : n.WellPlaced) : n.WellFormed :=
  fun m member => (h m member).1

/-- An operand is a child. -/
theorem mem_children_of_mem_operands {c n : Node} (h : c ∈ n.operands) : c ∈ n.children := by
  cases n with
  | select s =>
    simp only [operands, List.mem_append] at h
    simp only [children, List.mem_cons, List.mem_append]
    grind
  | inSubquery expr s => simp_all [operands, children]
  | groupConcat arg distinct order separator => simp_all [operands, children]
  | window name args partition order frame =>
    simp only [operands, List.mem_append] at h
    simp only [children, List.mem_append]
    exact .inl h
  | join type left right condition => simp_all [operands, children]
  | subSelect s aliasName => simp [operands] at h
  | _ => exact h

end Node

namespace Build

/-! ## What is built -/

/-- A node of the given kind that keeps its rules. Its operands are among the given ones, and all
its children are among these or the other parts. -/
structure BuiltFrom (kind : Kind) (exprs others : List (Option Node)) (n : Node) : Prop where
  kind_eq : n.kind = kind
  rules : n.KeepsRules
  operands : ∀ c ∈ n.operands, some c ∈ exprs
  children : ∀ c ∈ n.children, some c ∈ exprs ++ others

namespace BuiltFrom

variable {kind : Kind} {exprs others : List (Option Node)} {n : Node}

/-- A node that has no children but operands. -/
theorem ofChildren (kind_eq : n.kind = kind) (rules : n.KeepsRules)
    (children : ∀ c ∈ n.children, some c ∈ exprs) : BuiltFrom kind exprs [] n :=
  ⟨kind_eq, rules, fun c member => children c (Node.mem_children_of_mem_operands member),
    by simpa using children⟩

theorem wellFormed (h : BuiltFrom kind exprs others n)
    (sound : ∀ p, some p ∈ exprs ++ others → p.WellFormed) : n.WellFormed :=
  Node.everywhere_iff.mpr ⟨h.rules, fun c child => sound c (h.children c child)⟩

theorem wellPlaced (h : BuiltFrom kind exprs others n)
    (expressions : ∀ p, some p ∈ exprs → p.isExpression)
    (sound : ∀ p, some p ∈ exprs ++ others → p.WellPlaced) : n.WellPlaced :=
  Node.everywhere_iff.mpr ⟨⟨h.rules, fun c member => expressions c (h.operands c member)⟩,
    fun c child => sound c (h.children c child)⟩

theorem isExpression (h : BuiltFrom kind exprs others n) (expression : kind.isExpression) :
    n.isExpression := by
  rw [Node.isExpression, h.kind_eq]
  exact expression

end BuiltFrom

theorem fail_ne_ok {α : Type} {kind : Kind} {fault : Fault} {a : α} :
    (fail kind fault : Result α) ≠ .ok a := by simp [fail]

theorem fail_bind {α β : Type} {kind : Kind} {fault : Fault} {f : α → Result β} :
    (fail kind fault >>= f : Result β) = fail kind fault := rfl

theorem present_eq_ok {kind : Kind} {fault : Nat → Fault} {parts : List (Option Node)}
    {nodes : List Node} (h : present kind fault parts = .ok nodes) : parts = nodes.map some := by
  unfold present at h
  generalize 0 = start at h
  induction parts generalizing start nodes with
  | nil => simpa using h
  | cons part parts ih =>
    simp only [List.zipIdx_cons, List.mapM_cons, bind_eq_ok, pure_eq_ok] at h
    obtain ⟨first, taken, rest, others, rfl⟩ := h
    cases part with
    | none => simp [fail] at taken
    | some n =>
      obtain rfl : n = first := by simpa using taken
      rw [List.map_cons, ih _ others]

theorem operands_eq_ok {kind : Kind} {parts : List (Option Node)} {nodes : List Node}
    (h : operands kind parts = .ok nodes) : nodes ≠ [] ∧ parts = nodes.map some := by
  unfold operands at h
  split at h
  · exact absurd h fail_ne_ok
  · rename_i nonempty
    have same := present_eq_ok h
    refine ⟨?_, same⟩
    rintro rfl
    simp [same] at nonempty

theorem and_builtFrom {parts : List (Option Node)} {n : Node} (h : and parts = .ok n) :
    BuiltFrom .and parts [] n := by
  simp only [and, bind_eq_ok, pure_eq_ok] at h
  obtain ⟨nodes, taken, rfl⟩ := h
  obtain ⟨nonempty, rfl⟩ := operands_eq_ok taken
  exact .ofChildren rfl nonempty (fun c child => List.mem_map_of_mem child)

theorem or_builtFrom {parts : List (Option Node)} {n : Node} (h : or parts = .ok n) :
    BuiltFrom .or parts [] n := by
  simp only [or, bind_eq_ok, pure_eq_ok] at h
  obtain ⟨nodes, taken, rfl⟩ := h
  obtain ⟨nonempty, rfl⟩ := operands_eq_ok taken
  exact .ofChildren rfl nonempty (fun c child => List.mem_map_of_mem child)

theorem not_builtFrom {part : Option Node} {n : Node} (h : not part = .ok n) :
    BuiltFrom .not [part] [] n := by
  cases part with
  | none => exact absurd h fail_ne_ok
  | some operand =>
    cases h
    exact .ofChildren rfl trivial (by simp [Node.children])

theorem comparison_builtFrom {op : ComparisonOp} {left right : Option Node} {n : Node}
    (h : comparison op left right = .ok n) : BuiltFrom .comparison [left, right] [] n := by
  unfold comparison at h
  split at h
  · exact absurd h fail_ne_ok
  · rename_i known
    split at h
    · cases h
      exact .ofChildren rfl known (by simp [Node.children])
    · exact absurd h fail_ne_ok

theorem like_builtFrom {expr pattern escape : Option Node} {n : Node}
    (h : like expr pattern escape = .ok n) : BuiltFrom .like [expr, pattern, escape] [] n := by
  unfold like at h
  split at h
  · cases h
    exact .ofChildren rfl trivial (by simp [Node.children]; grind)
  · exact absurd h fail_ne_ok

theorem regexpLike_builtFrom {expr pattern : Option Node} {n : Node}
    (h : regexpLike expr pattern = .ok n) : BuiltFrom .regexpLike [expr, pattern] [] n := by
  unfold regexpLike at h
  split at h
  · cases h
    exact .ofChildren rfl trivial (by simp [Node.children])
  · exact absurd h fail_ne_ok

theorem between_builtFrom {expr low high : Option Node} {n : Node}
    (h : between expr low high = .ok n) : BuiltFrom .between [expr, low, high] [] n := by
  unfold between at h
  split at h
  · cases h
    exact .ofChildren rfl trivial (by simp [Node.children])
  · exact absurd h fail_ne_ok

theorem inList_builtFrom {expr : Option Node} {values : List (Option Node)} {n : Node}
    (h : inList expr values = .ok n) : BuiltFrom .inList (expr :: values) [] n := by
  cases expr with
  | none => exact absurd h fail_ne_ok
  | some expr =>
    simp only [inList, bind_eq_ok, pure_eq_ok] at h
    obtain ⟨nodes, taken, rfl⟩ := h
    obtain ⟨nonempty, rfl⟩ := operands_eq_ok taken
    exact .ofChildren rfl nonempty (by simp [Node.children])

theorem inSubquery_builtFrom {expr : Option Node} {statement : Option Statement} {n : Node}
    (h : inSubquery expr statement = .ok n) :
    BuiltFrom .inSubquery [expr] [statement.map .select] n := by
  unfold inSubquery at h
  split at h
  · split at h
    · cases h
      exact ⟨rfl, by assumption, by simp [Node.operands], by simp [Node.children]⟩
    · exact absurd h fail_ne_ok
  · exact absurd h fail_ne_ok

theorem isNull_builtFrom {part : Option Node} {n : Node} (h : isNull part = .ok n) :
    BuiltFrom .isNull [part] [] n := by
  cases part with
  | none => exact absurd h fail_ne_ok
  | some operand =>
    cases h
    exact .ofChildren rfl trivial (by simp [Node.children])

theorem isNotNull_builtFrom {part : Option Node} {n : Node} (h : isNotNull part = .ok n) :
    BuiltFrom .isNotNull [part] [] n := by
  cases part with
  | none => exact absurd h fail_ne_ok
  | some operand =>
    cases h
    exact .ofChildren rfl trivial (by simp [Node.children])

theorem function_builtFrom {name : String} {args : List (Option Node)} {n : Node}
    (h : function name args = .ok n) : BuiltFrom .function args [] n := by
  unfold function at h
  split at h
  · exact absurd h fail_ne_ok
  · simp only [bind_eq_ok, pure_eq_ok] at h
    obtain ⟨nodes, taken, rfl⟩ := h
    rw [present_eq_ok taken]
    exact .ofChildren rfl ⟨name, rfl⟩ (fun c child => List.mem_map_of_mem child)

theorem extract_builtFrom {part : DatePart} {arg : Option Node} {n : Node}
    (h : extract part arg = .ok n) : BuiltFrom .extract [arg] [] n := by
  unfold extract at h
  split at h
  · exact absurd h fail_ne_ok
  · rename_i known
    split at h
    · cases h
      exact .ofChildren rfl known (by simp [Node.children])
    · exact absurd h fail_ne_ok

theorem cast_builtFrom {arg : Option Node} {type : DataType} {n : Node}
    (h : cast arg type = .ok n) : BuiltFrom .cast [arg] [] n := by
  cases arg with
  | none => exact absurd h fail_ne_ok
  | some arg =>
    simp only [cast, bind_eq_ok, pure_eq_ok] at h
    obtain ⟨_, checked, rfl⟩ := h
    exact .ofChildren rfl checked (by simp [Node.children])

/-- The branches of a CASE are all there, each with both of its parts. -/
theorem branches_eq_ok {branches : List (Branch (Option Node))} {built : List (Branch Node)}
    {start : Nat}
    (h : (branches.zipIdx start).mapM (fun (branch, index) =>
      match branch.condition, branch.result with
      | some condition, some result => (.ok (Branch.mk condition result) : Result (Branch Node))
      | _, _ => fail .case (.incompleteBranch index)) = .ok built) :
    branches = built.map fun b => ⟨some b.condition, some b.result⟩ := by
  induction branches generalizing start built with
  | nil => simpa using h
  | cons branch branches ih =>
    simp only [List.zipIdx_cons, List.mapM_cons, bind_eq_ok, pure_eq_ok] at h
    obtain ⟨first, taken, rest, others, rfl⟩ := h
    rw [List.map_cons, ← ih others]
    rcases branch with ⟨_ | condition, _ | result⟩
    · exact absurd taken fail_ne_ok
    · exact absurd taken fail_ne_ok
    · exact absurd taken fail_ne_ok
    · cases taken
      rfl

theorem case_eq_ok {basis : Option Node} {branches : List (Branch (Option Node))}
    {otherwise : Option Node} {n : Node} (h : case basis branches otherwise = .ok n) :
    branches ≠ [] ∧ ∃ built : List (Branch Node),
      (branches = built.map fun b => ⟨some b.condition, some b.result⟩) ∧
      n = .case basis built otherwise := by
  unfold case at h
  split at h
  · exact absurd h fail_ne_ok
  · rename_i nonempty
    simp only [bind_eq_ok, pure_eq_ok] at h
    obtain ⟨built, taken, rfl⟩ := h
    exact ⟨by simpa using nonempty, built, branches_eq_ok taken, rfl⟩

theorem case_builtFrom {basis : Option Node} {branches : List (Branch (Option Node))}
    {otherwise : Option Node} {n : Node} (h : case basis branches otherwise = .ok n) :
    BuiltFrom .case
      (basis :: otherwise :: branches.flatMap fun b => [b.condition, b.result]) [] n := by
  obtain ⟨nonempty, built, rfl, rfl⟩ := case_eq_ok h
  refine .ofChildren rfl ?_ ?_
  · rintro rfl
    exact nonempty rfl
  · intro c child
    simp only [Node.children, List.mem_append, Option.mem_toList, List.mem_flatMap] at child
    simp only [List.mem_cons, List.mem_flatMap, List.mem_map]
    rcases child with (rfl | ⟨b, member, part⟩) | rfl
    · exact .inl rfl
    · exact .inr (.inr ⟨_, ⟨b, member, rfl⟩, by simpa using part⟩)
    · exact .inr (.inl rfl)

theorem aggregate_builtFrom {name : String} {distinct : Bool} {filter : Option Node}
    {args : List (Option Node)} {n : Node} (h : aggregate name distinct filter args = .ok n) :
    BuiltFrom .aggregate (filter :: args) [] n := by
  unfold aggregate at h
  simp only at h
  split at h
  · exact absurd h fail_ne_ok
  split at h
  · exact absurd h fail_ne_ok
  rename_i counting
  split at h
  · exact absurd h fail_ne_ok
  rename_i plain
  simp only [bind_eq_ok, pure_eq_ok] at h
  obtain ⟨nodes, taken, rfl⟩ := h
  obtain rfl := present_eq_ok taken
  refine .ofChildren rfl ⟨⟨name, rfl⟩, ?_⟩ ?_
  · rintro rfl
    simp_all
  · intro c child
    simp only [Node.children, List.mem_append, Option.mem_toList] at child
    simp only [List.mem_cons, List.mem_map]
    rcases child with member | rfl
    · exact .inr ⟨c, member, rfl⟩
    · exact .inl rfl

theorem groupConcat_builtFrom {arg : Option Node} {distinct : Bool}
    {order : Option (List (SortKey Node))} {separator : Option String} {n : Node}
    (h : groupConcat arg distinct order separator = .ok n) :
    BuiltFrom .groupConcat [arg] [order.map .orderBy] n := by
  cases arg with
  | none => exact absurd h fail_ne_ok
  | some arg =>
    cases h
    refine ⟨rfl, trivial, by simp [Node.operands], fun c child => ?_⟩
    simp only [Node.children, List.mem_cons, Option.mem_toList] at child
    rcases child with rfl | given
    · simp
    · simp [given]

theorem window_eq_ok {name : String} {args partition : List (Option Node)}
    {order : Option (List (SortKey Node))} {frame : Option Frame} {n : Node}
    (h : window name args partition order frame = .ok n) :
    ∃ nodes parts : List Node, args = nodes.map some ∧ partition = parts.map some ∧
      n = .window (Text.upper name) nodes parts order frame ∧
      (nodes = [] → Text.upper name ∈ nullaryWindows) ∧
      ∀ f ∈ frame, order.isSome ∧ checkFrame f = .ok () := by
  unfold window at h
  simp only [fail_bind] at h
  split at h
  · exact absurd h fail_ne_ok
  split at h
  · exact absurd h fail_ne_ok
  rename_i arguments
  simp only [bind_eq_ok] at h
  obtain ⟨nodes, taken, parts, others, h⟩ := h
  obtain rfl := present_eq_ok taken
  refine ⟨nodes, parts, rfl, present_eq_ok others, ?_⟩
  have nullary : nodes = [] → Text.upper name ∈ nullaryWindows := by
    rintro rfl
    simpa using arguments
  cases frame with
  | none =>
    cases h
    exact ⟨rfl, nullary, by simp⟩
  | some f =>
    simp only at h
    split at h
    · exact absurd h fail_ne_ok
    · rename_i sorted
      simp only [bind_eq_ok, pure_eq_ok] at h
      obtain ⟨_, checked, rfl⟩ := h
      refine ⟨rfl, nullary, ?_⟩
      simp_all [Option.isSome_iff_ne_none]

theorem window_builtFrom {name : String} {args partition : List (Option Node)}
    {order : Option (List (SortKey Node))} {frame : Option Frame} {n : Node}
    (h : window name args partition order frame = .ok n) :
    BuiltFrom .window (args ++ partition) [order.map .orderBy] n := by
  obtain ⟨nodes, parts, rfl, rfl, rfl, arguments, frames⟩ := window_eq_ok h
  refine ⟨rfl, ⟨⟨name, rfl⟩, arguments, frames⟩, by simp [Node.operands], ?_⟩
  intro c child
  simp only [Node.children, List.mem_append, Option.mem_toList] at child
  rcases child with (member | member) | given
  · simp [member]
  · simp [member]
  · simp [given]

theorem join_builtFrom {type : JoinType} {left right condition : Option Node} {n : Node}
    (h : join type left right condition = .ok n) :
    BuiltFrom .join [condition] [left, right] n := by
  unfold join at h
  split at h
  · exact absurd h fail_ne_ok
  rename_i known
  split at h
  · split at h
    · rename_i items
      split at h
      · split at h
        · exact absurd h fail_ne_ok
        · rename_i inside
          cases h
          exact ⟨rfl, ⟨known, items.1, items.2, inside⟩, by simp [Node.operands],
            by simp [Node.children]⟩
      · exact absurd h fail_ne_ok
    · exact absurd h fail_ne_ok
  · exact absurd h fail_ne_ok

theorem join_eq_ok {type : JoinType} {left right condition n : Node}
    (h : join type left right condition = .ok n) : n = .join type left right condition := by
  simp only [join] at h
  split at h
  · exact absurd h fail_ne_ok
  · split at h
    · split at h
      · exact absurd h fail_ne_ok
      · cases h
        rfl
    · exact absurd h fail_ne_ok

theorem subSelect_builtFrom {statement : Option Statement} {aliasName : String} {n : Node}
    (h : subSelect statement aliasName = .ok n) :
    BuiltFrom .subSelect [] [statement.map .select] n := by
  cases statement with
  | none => exact absurd h fail_ne_ok
  | some statement =>
    simp only [subSelect] at h
    split at h
    · exact absurd h fail_ne_ok
    · rename_i named
      cases h
      exact ⟨rfl, named, by simp [Node.operands], by simp [Node.children]⟩

theorem subSelect_eq_ok {statement : Statement} {aliasName : String} {n : Node}
    (h : subSelect (some statement) aliasName = .ok n) : n = .subSelect statement aliasName := by
  simp only [subSelect] at h
  split at h
  · exact absurd h fail_ne_ok
  · cases h
    rfl

theorem table_eq_ok {name aliasName : String} {t : Table} (h : table name aliasName = .ok t) :
    t = { name, aliasName } := by
  unfold table at h
  split at h
  · exact absurd h fail_ne_ok
  · cases h
    rfl

theorem table_builtFrom {name aliasName : String} {t : Table} (h : table name aliasName = .ok t) :
    BuiltFrom .table [] [] (.table t) := by
  unfold table at h
  split at h
  · exact absurd h fail_ne_ok
  · rename_i named
    cases h
    exact .ofChildren rfl named (by simp [Node.children])

theorem column_eq_ok {table name : String} {type : DataType} {c : Column}
    (h : column table name type = .ok c) : c = { table, name, type } := by
  unfold column at h
  split at h
  · exact absurd h fail_ne_ok
  split at h
  · exact absurd h fail_ne_ok
  cases h
  rfl

/-- The alias and the position of a column are free. -/
theorem column_builtFrom {table name : String} {type : DataType} {c : Column}
    (h : column table name type = .ok c) (aliasName : String) (index : Int) :
    BuiltFrom .column [] [] (.column { c with aliasName, index }) := by
  unfold column at h
  split at h
  · exact absurd h fail_ne_ok
  split at h
  · exact absurd h fail_ne_ok
  · rename_i named owned
    cases h
    exact .ofChildren rfl ⟨named, owned⟩ (by simp [Node.children])

theorem literal_builtFrom {type : LiteralType} {value : String} {l : Literal}
    (h : literal type value = .ok l) : BuiltFrom .literal [] [] (.literal l) := by
  refine .ofChildren rfl ?_ (by simp [Node.children])
  unfold literal at h
  cases type <;> simp only at h
  case null => cases h; rfl
  case bool =>
    split at h
    · cases h; assumption
    · exact absurd h fail_ne_ok
  case double =>
    split at h
    · cases h; assumption
    · split at h <;> exact absurd h fail_ne_ok
  case string => cases h; trivial
  case interval | other => exact absurd h fail_ne_ok
  all_goals
    split at h
    · cases h; assumption
    · exact absurd h fail_ne_ok

theorem intervalLiteral_builtFrom {value : String} {type : DataType} {l : Literal}
    (h : intervalLiteral value type = .ok l) : BuiltFrom .literal [] [] (.literal l) := by
  refine .ofChildren rfl ?_ (by simp [Node.children])
  unfold intervalLiteral at h
  simp only [fail_bind] at h
  split at h
  · exact absurd h fail_ne_ok
  rename_i interval
  simp only [ne_eq, Decidable.not_not] at interval
  simp only [bind_eq_ok] at h
  obtain ⟨_, checked, h⟩ := h
  split at h
  · rename_i formatted
    cases h
    refine ⟨formatted, interval, ?_⟩
    by_cases known : type.range.isKnown
    · exact known
    · simp [checkType, interval, known, fail] at checked
  · exact absurd h fail_ne_ok

/-! ## Clauses -/

theorem selectList_builtFrom {items : List (SelectItem (Option Node))} {list : SelectList Node}
    (h : selectList items = .ok list) :
    BuiltFrom .selectList (items.map (·.expr)) [] (.selectList list) := by
  simp only [selectList, bind_eq_ok, pure_eq_ok] at h
  obtain ⟨exprs, taken, rfl⟩ := h
  rw [present_eq_ok taken]
  refine .ofChildren rfl (by simp [Node.KeepsRules]) ?_
  intro c child
  simp only [Node.children, List.mem_map] at child ⊢
  obtain ⟨item, member, rfl⟩ := child
  rw [← List.map_uncurry_zip_eq_zipWith] at member
  obtain ⟨⟨expr, _⟩, pair, rfl⟩ := List.mem_map.mp member
  exact ⟨expr, (List.of_mem_zip pair).1, rfl⟩

theorem groupBy_builtFrom {parts : List (Option Node)} {exprs : List Node}
    (h : groupBy parts = .ok exprs) : BuiltFrom .groupBy parts [] (.groupBy exprs) := by
  obtain ⟨nonempty, rfl⟩ := operands_eq_ok h
  exact .ofChildren rfl nonempty (fun c child => List.mem_map_of_mem child)

theorem orderBy_builtFrom {parts : List (Option Node)} {ascending nullsLast : List Bool}
    {keys : List (SortKey Node)} (h : orderBy parts ascending nullsLast = .ok keys) :
    BuiltFrom .orderBy parts [] (.orderBy keys) := by
  unfold orderBy at h
  split at h
  · exact absurd h fail_ne_ok
  rename_i nonempty
  split at h
  · exact absurd h fail_ne_ok
  rename_i lengths
  simp only [bind_eq_ok, pure_eq_ok] at h
  obtain ⟨exprs, taken, rfl⟩ := h
  obtain rfl := present_eq_ok taken
  refine .ofChildren rfl ?_ ?_
  · simp only [List.length_map, ne_eq, not_or, Decidable.not_not] at lengths
    obtain ⟨first, second⟩ := lengths
    have : exprs.length ≠ 0 := by simpa using nonempty
    intro none
    have := congrArg List.length none
    simp only [List.length_zipWith, List.length_zip, List.length_nil] at this
    omega
  · intro c child
    simp only [Node.children, List.mem_map] at child
    obtain ⟨key, member, rfl⟩ := child
    rw [← List.map_uncurry_zip_eq_zipWith] at member
    obtain ⟨⟨expr, _⟩, pair, rfl⟩ := List.mem_map.mp member
    exact List.mem_map_of_mem (List.of_mem_zip pair).1

theorem limit_builtFrom {count offset : Int} {l : Limit} (h : limit count offset = .ok l) :
    BuiltFrom .limit [] [] (.limit l) := by
  unfold limit at h
  split at h
  · exact absurd h fail_ne_ok
  split at h
  · exact absurd h fail_ne_ok
  cases h
  exact .ofChildren rfl ⟨by simp; omega, by simp; omega⟩ (by simp [Node.children])

/-- The condition that a clause puts into a statement. -/
def Clause.condition : Clause → Option Node
  | filter predicate | having predicate => predicate
  | _ => none

/-- The node that a clause puts into a statement, unless it is a condition. -/
def Clause.part : Clause → Option Node
  | source item => item
  | grouping exprs => exprs.map .groupBy
  | order keys => keys.map .orderBy
  | limit l => l.map .limit
  | filter _ | having _ | aggregation _ => none

theorem Clause.operands_apply {s : Statement} {clause : Clause} {c : Node}
    (h : c ∈ (Node.select (clause.apply s)).operands) :
    c ∈ (Node.select s).operands ∨ clause.condition = some c := by
  cases clause with
  | aggregation a =>
    left
    simp only [apply] at h
    split at h <;> exact h
  | _ => simp [apply, condition, Node.operands] at h ⊢; grind

/-- Putting in a clause adds at most its own node. -/
theorem Clause.children_apply {s : Statement} {clause : Clause} {c : Node}
    (h : c ∈ (Node.select (clause.apply s)).children) :
    c ∈ (Node.select s).children ∨ clause.condition = some c ∨ clause.part = some c := by
  cases clause with
  | aggregation a =>
    left
    simp only [apply] at h
    split at h <;> exact h
  | _ => simp [apply, condition, part, Node.children] at h ⊢; grind

/-- A statement with a grouping aggregates by it, however many clauses follow. -/
theorem Clause.apply_grouping {s : Statement} (clause : Clause)
    (h : s.grouping.isSome → s.aggregation = .groupBy) :
    (clause.apply s).grouping.isSome → (clause.apply s).aggregation = .groupBy := by
  cases clause with
  | grouping exprs => simp +contextual [apply]
  | aggregation a =>
    simp only [apply]
    split
    · exact h
    · rename_i other
      intro given
      exact absurd (h given) other
  | _ => exact h

theorem checkClauses_eq_ok {s t : Statement} (h : checkClauses s = .ok t)
    (grouped : s.grouping.isSome → s.aggregation = .groupBy) : t = s ∧ s.KeepsRules := by
  unfold checkClauses at h
  split at h
  · exact absurd h fail_ne_ok
  rename_i items
  split at h
  · exact absurd h fail_ne_ok
  rename_i known
  split at h
  · exact absurd h fail_ne_ok
  rename_i grouping
  split at h
  · exact absurd h fail_ne_ok
  rename_i having
  split at h
  · exact absurd h fail_ne_ok
  rename_i clauses
  cases h
  refine ⟨rfl, ?_, known, ⟨?_, grouped⟩, ?_, ?_⟩
  · intro item given
    simpa [Option.mem_def.mp given, Option.filter] using items
  · intro aggregated
    rw [Option.isSome_iff_ne_none]
    rintro none
    exact grouping ⟨aggregated, by simp [none]⟩
  · intro given none
    exact having ⟨given, none⟩
  · intro none
    simpa [none] using clauses

theorem select_builtFrom {list : SelectList Node} {clauses : List Clause} {s : Statement}
    (h : select (some list) clauses = .ok s) :
    BuiltFrom .select (clauses.map (·.condition))
      (some (.selectList list) :: clauses.map (·.part)) (.select s) := by
  -- What holds of the parts of a statement and of every clause holds after any number of clauses.
  have keep : ∀ {P : Statement → Prop} (s : Statement), P s →
      (∀ s, ∀ clause ∈ clauses, P s → P (clause.apply s)) → P (clauses.foldl Clause.apply s) := by
    clear h
    intro P
    induction clauses with
    | nil => exact fun s start _ => start
    | cons clause clauses ih =>
      intro s start step
      refine ih _ (step s clause (List.mem_cons_self ..) start) ?_
      exact fun s other member => step s other (List.mem_cons_of_mem _ member)
  have grouped := keep (P := fun s => s.grouping.isSome → s.aggregation = .groupBy) { list }
    (by simp) fun s clause _ => clause.apply_grouping
  obtain ⟨rfl, rules⟩ := checkClauses_eq_ok h grouped
  refine ⟨rfl, rules, ?_, ?_⟩
  · apply keep (P := fun s => ∀ c ∈ (Node.select s).operands,
      some c ∈ clauses.map (·.condition)) { list }
    · simp [Node.operands]
    · intro s clause member start c operand
      rcases Clause.operands_apply operand with operand | given
      · exact start c operand
      · exact List.mem_map.mpr ⟨clause, member, given⟩
  · apply keep (P := fun s => ∀ c ∈ (Node.select s).children, some c ∈
      clauses.map (·.condition) ++ some (.selectList list) :: clauses.map (·.part)) { list }
    · simp [Node.children]
    · intro s clause member start c child
      rw [List.mem_append, List.mem_cons]
      rcases Clause.children_apply child with child | given | given
      · simpa using start c child
      · exact .inl (List.mem_map.mpr ⟨clause, member, given⟩)
      · exact .inr (.inr (List.mem_map.mpr ⟨clause, member, given⟩))

/-- A statement with one clause of each kind has just these clauses. A grouping decides how it
aggregates. -/
theorem select_eq_ok {list : SelectList Node} {source filter having : Option Node}
    {aggregation : Aggregation} {grouping : Option (List Node)}
    {order : Option (List (SortKey Node))} {limit : Option Limit} {s : Statement}
    (h : select (some list) [.source source, .filter filter, .aggregation aggregation,
      .grouping grouping, .having having, .order order, .limit limit] = .ok s) :
    s = { list, source, filter, grouping, having, order, limit
          aggregation := if grouping.isSome then .groupBy else aggregation } := by
  let decided := if grouping.isSome then .groupBy else aggregation
  have shape : [Clause.source source, .filter filter, .aggregation aggregation, .grouping grouping,
      .having having, .order order, .limit limit].foldl Clause.apply { list } =
      Select.mk list source filter grouping having order limit decided := by
    simp [Clause.apply, decided]
  rw [select, shape] at h
  exact (checkClauses_eq_ok h fun given => if_pos given).1

end Build

end Pushdown

import Pushdown.Proofs.Sql.Parts
import Pushdown.Proofs.Sql.Rendering
import Pushdown.Proofs.Syntax.Rewriting
import Pushdown.Proofs.Syntax.WellFormed

/-!
# CASE without a basis

`Node.searched` puts a CASE without a basis in the place of every CASE with one: each branch
compares the basis with its value. In a dialect that lacks a CASE with a basis, a tree and its
searched form have the same text, or are refused with the same error. One CASE keeps its text because
the basis is rendered in front of every branch, and a node keeps its text because the standard rules
look at nothing but the texts and kinds of its parts.
-/

namespace Pushdown

namespace Node

/-- A CASE with a basis as one without. Any other node stays as it is. -/
def searchCase : Node → Node
  | .case (some basis) branches otherwise =>
    .case none (branches.map fun b => ⟨.comparison .equal basis b.condition, b.result⟩) otherwise
  | n => n

/-- The tree without any CASE that has a basis. -/
def searched (n : Node) : Node := n.rewrite searchCase

/-- A CASE has branches. -/
def HasBranches : Node → Prop
  | .case _ branches _ => branches ≠ []
  | _ => True

theorem KeepsRules.hasBranches {n : Node} (built : n.KeepsRules) : n.HasBranches := by
  cases n with
  | case basis branches otherwise => exact built
  | _ => trivial

theorem HasBranches.mapParts {n : Node} (h : n.HasBranches) (f : Node → Node) :
    (n.mapParts f).HasBranches := by
  cases n with
  | case basis branches otherwise => simpa [HasBranches, Node.mapParts] using h
  | _ => trivial

/-- The node is no CASE with a basis. -/
def HasNoBasis (n : Node) : Prop :=
  ∀ basis branches otherwise, n ≠ .case (some basis) branches otherwise

theorem searched_eq (n : Node) : n.searched = (n.mapParts searched).searchCase :=
  rewrite_eq searchCase n

@[simp] theorem kind_searchCase (n : Node) : n.searchCase.kind = n.kind := by
  unfold searchCase
  split <;> rfl

@[simp] theorem kind_searched (n : Node) : n.searched.kind = n.kind := by
  rw [searched_eq, kind_searchCase, kind_mapParts]

theorem searchCase_of_kind {n : Node} (other : n.kind ≠ .case) : n.searchCase = n := by
  unfold searchCase
  split
  · exact absurd rfl other
  · rfl

theorem searched_of_kind {n : Node} (other : n.kind ≠ .case) :
    n.searched = n.mapParts searched := by
  rw [searched_eq]
  apply searchCase_of_kind
  rwa [kind_mapParts]

/-! Statements and clauses stay, with their parts searched. -/

theorem searched_select (s : Statement) : (select s).searched = select (s.mapParts searched) :=
  searched_of_kind (by simp [kind])

theorem searched_selectList (l : SelectList Node) :
    (selectList l).searched = selectList (l.mapExprs searched) :=
  searched_of_kind (by simp [kind])

theorem searched_groupBy (exprs : List Node) :
    (groupBy exprs).searched = groupBy (exprs.map searched) :=
  searched_of_kind (by simp [kind])

theorem searched_orderBy (keys : List (SortKey Node)) :
    (orderBy keys).searched = orderBy (keys.map (·.mapExpr searched)) :=
  searched_of_kind (by simp [kind])

theorem searched_limit (l : Limit) : (limit l).searched = limit l :=
  searched_of_kind (by simp [kind])

/-- The parts of a node, its clauses included, are searched one by one. -/
theorem children_mapParts (n : Node) :
    (n.mapParts searched).children = n.children.map searched := by
  cases n with
  | select s =>
    simp [mapParts, Select.mapParts, children, searched_selectList, searched_groupBy,
      searched_orderBy, searched_limit, Option.toList_map, Function.comp_def]
  | selectList l | orderBy keys =>
    simp [mapParts, SelectList.mapExprs, SelectItem.mapExpr, SortKey.mapExpr, children,
      Function.comp_def]
  | subSelect s | inSubquery _ s => simp [mapParts, children, searched_select]
  | case basis branches otherwise =>
    simp [mapParts, children, Branch.mapParts, Option.toList_map, List.map_flatMap,
      List.flatMap_map]
  | like expr pattern escape => simp [mapParts, children, Option.toList_map]
  | aggregate name distinct args filter => simp [mapParts, children, Option.toList_map]
  | groupConcat arg distinct order separator =>
    simp [mapParts, children, searched_orderBy, Option.toList_map, Function.comp_def]
  | window name args partition order frame =>
    simp [mapParts, children, searched_orderBy, Option.toList_map, Function.comp_def]
  | _ => simp [mapParts, children]

theorem searchCase_hasNoBasis (n : Node) : n.searchCase.HasNoBasis := by
  unfold searchCase
  split
  · rintro _ _ _ ⟨⟩
  · rename_i other
    exact other

/-- A searched tree has no CASE with a basis in it. -/
theorem searched_hasNoBasis (n : Node) : n.searched.Everywhere HasNoBasis := by
  induction n using Node.induction with
  | step n below =>
    rw [searched_eq]
    have parts : ∀ c ∈ (n.mapParts searched).children, c.Everywhere HasNoBasis := by
      rw [children_mapParts]
      rintro _ part
      obtain ⟨c, child, rfl⟩ := List.mem_map.mp part
      exact below c child
    refine everywhere_iff.mpr ⟨searchCase_hasNoBasis _, ?_⟩
    generalize n.mapParts searched = m at parts
    unfold searchCase
    split
    · rename_i basis branches otherwise
      intro c part
      simp only [children, Option.toList_none, List.nil_append, List.mem_append, List.mem_flatMap,
        List.mem_map, Option.mem_toList, List.mem_cons, List.not_mem_nil, or_false] at part
      rcases part with ⟨_, ⟨b, member, rfl⟩, rfl | rfl⟩ | last
      · refine everywhere_iff.mpr ⟨by rintro _ _ _ ⟨⟩, fun side compared => ?_⟩
        simp only [children, List.mem_cons, List.not_mem_nil, or_false] at compared
        rcases compared with rfl | rfl
        · exact parts side (by simp [children])
        · exact parts b.condition (condition_mem_children member)
      · exact parts b.result (result_mem_children member)
      · exact parts c (by simp [children, last])
    · exact parts

end Node

namespace Render

variable {d : Dialect} {ctx : Context}

/-! ## One CASE -/

/-- A comparison with the basis in each branch is what a dialect without a CASE with a basis makes
of one itself. A basis that is refused is refused in the first branch. -/
theorem case_searched (lacks : d.has .simpleCase = false) (basis : Result Sql)
    {branches : List (Result Sql × Result Sql)} (nonempty : branches ≠ [])
    (otherwise : Option (Result Sql)) :
    case d none (branches.map fun b => (comparison .equal basis b.1, b.2)) otherwise =
      case d (some basis) branches otherwise := by
  cases basis with
  | error e =>
    obtain ⟨b, rest, rfl⟩ := List.exists_cons_of_ne_nil nonempty
    rfl
  | ok s =>
    have same (b : Result Sql × Result Sql) :
        branch d none (comparison .equal (.ok s) b.1) b.2 = branch d (some s) b.1 b.2 := by
      rcases b with ⟨⟨⟩ | ⟨⟩, ⟨⟩ | ⟨⟩⟩ <;> simp only [branch, lacks] <;> rfl
    have written : (branches.map fun b => (comparison .equal (.ok s) b.1, b.2)).map
        (fun b => branch d none b.1 b.2) = branches.map fun b => branch d (some s) b.1 b.2 := by
      simp only [List.map_map, Function.comp_def, same]
    simp only [case, optional, lacks]
    change inOrder _ >>= _ = inOrder _ >>= _
    rw [written]
    rfl

theorem node_comparison_of_unmarked (unmarked : .comparison ∉ d.marked) (op : ComparisonOp)
    (left right : Node) :
    node d ctx (.comparison op left right) =
      comparison op (asOperand d left (node d ctx left))
        (asOperand d right (node d ctx right)) := by
  have unchanged : mark d (Node.comparison op left right).kind = id := by
    funext s
    simp [mark, Node.kind, unmarked]
  rw [node_eq, unchanged, id_map]
  rfl

/-- Searching one CASE keeps its text. -/
theorem node_searchCase (lacks : d.has .simpleCase = false) (unmarked : .comparison ∉ d.marked)
    {n : Node} (branched : n.HasBranches) : node d ctx n.searchCase = node d ctx n := by
  unfold Node.searchCase
  split
  · rename_i basis branches otherwise
    let text (b : Branch Node) : Result Sql × Result Sql :=
      (asOperand d b.condition (node d ctx b.condition), asOperand d b.result (node d ctx b.result))
    have nonempty : branches.map text ≠ [] := by
      rw [ne_eq, List.map_eq_nil_iff]
      exact branched
    have compared (b : Branch Node) :
        asCondition d false (.comparison .equal basis b.condition)
            (node d ctx (.comparison .equal basis b.condition)) =
          comparison .equal (asOperand d basis (node d ctx basis)) (text b).1 := by
      rw [asCondition, if_neg (by decide), asPredicate_other (by simp [Node.kind])
        (by simp [Node.kind]), node_comparison_of_unmarked unmarked]
    have whole := case_searched lacks (asOperand d basis (node d ctx basis)) nonempty
      (otherwise.map fun e => asOperand d e (node d ctx e))
    rw [List.map_map] at whole
    rw [node_eq, node_eq d ctx (.case (some basis) _ _)]
    refine congrArg (mark d .case <$> ·) (Eq.trans ?_ whole)
    simp only [defaultRule, List.map_map, Option.map_none, Option.isSome_none, Function.comp_def,
      compared]
    rfl
  · rfl

/-! ## Parts of a node -/

theorem connective_map {f : Node → Node} {operands : List Node}
    (kinds : ∀ o ∈ operands, (f o).kind = o.kind) (word : String)
    (conditions : List (Result Sql)) :
    connective word (operands.map f) conditions = connective word operands conditions := by
  have same (texts : List Sql) :
      connect word ((operands.map f).zip texts) = connect word (operands.zip texts) := by
    simp only [connect, List.zip_map_left, List.map_map, List.length_map]
    congr 1
    refine List.map_congr_left fun (o, s) member => ?_
    have connects : (f o).isConnective = o.isConnective := by
      rw [Node.isConnective, Node.isConnective, kinds o (List.of_mem_zip member).1]
    simp only [Function.comp, Prod.map, id, connects]
  simp only [connective, same]

section

variable {c : Node}

theorem operand_searched (text : node d ctx c.searched = node d ctx c) :
    asOperand d c.searched (node d ctx c.searched) = asOperand d c (node d ctx c) := by
  have predicate : c.searched.isPredicate = c.isPredicate := by
    rw [Node.isPredicate, Node.isPredicate, Node.kind_searched]
  rw [asOperand, asOperand, predicate, Node.kind_searched, text]

theorem condition_searched (text : node d ctx c.searched = node d ctx c) :
    asPredicate d c.searched (node d ctx c.searched) = asPredicate d c (node d ctx c) := by
  by_cases leaf : c.kind = .literal ∨ c.kind = .column
  · have stays : c.searched = c := by
      cases c with
      | literal _ | column _ => exact Node.searched_of_kind (by simp [Node.kind])
      | _ => simp [Node.kind] at leaf
    rw [stays]
  · rw [not_or] at leaf
    rw [asPredicate_other (by rw [Node.kind_searched]; exact leaf.1)
      (by rw [Node.kind_searched]; exact leaf.2), asPredicate_other leaf.1 leaf.2, text]

end

theorem operands_searched {cs : List Node} (text : ∀ c ∈ cs, node d ctx c.searched = node d ctx c) :
    (cs.map Node.searched).map (fun c => asOperand d c (node d ctx c)) =
      cs.map fun c => asOperand d c (node d ctx c) := by
  rw [List.map_map]
  exact List.map_congr_left fun c member => operand_searched (text c member)

theorem conditions_searched {cs : List Node}
    (text : ∀ c ∈ cs, node d ctx c.searched = node d ctx c) :
    (cs.map Node.searched).map (fun c => asPredicate d c (node d ctx c)) =
      cs.map fun c => asPredicate d c (node d ctx c) := by
  rw [List.map_map]
  exact List.map_congr_left fun c member => condition_searched (text c member)

theorem operand?_searched {o : Option Node} (text : ∀ c ∈ o, node d ctx c.searched = node d ctx c) :
    (o.map Node.searched).map (fun c => asOperand d c (node d ctx c)) =
      o.map fun c => asOperand d c (node d ctx c) := by
  rw [Option.map_map]
  exact Option.map_congr fun c member => operand_searched (text c member)

theorem condition?_searched {o : Option Node}
    (text : ∀ c ∈ o, node d ctx c.searched = node d ctx c) :
    (o.map Node.searched).map (fun c => asPredicate d c (node d ctx c)) =
      o.map fun c => asPredicate d c (node d ctx c) := by
  rw [Option.map_map]
  exact Option.map_congr fun c member => condition_searched (text c member)

theorem order?_searched {order : Option (List (SortKey Node))}
    (text : ∀ c ∈ order.map Node.orderBy, node d ctx c.searched = node d ctx c) :
    (order.map (·.map (·.mapExpr Node.searched))).map (fun keys => node d ctx (.orderBy keys)) =
      order.map fun keys => node d ctx (.orderBy keys) := by
  rw [Option.map_map]
  refine Option.map_congr fun keys given => ?_
  have same := text (.orderBy keys) (Option.mem_map_of_mem _ given)
  rwa [Node.searched_orderBy] at same

/-- The standard rules make the same of parts that have the same texts. -/
theorem defaultRule_searched {n : Node}
    (text : ∀ c ∈ n.children, node d ctx c.searched = node d ctx c) :
    defaultRule d ctx (node d ctx) (n.mapParts Node.searched) =
      defaultRule d ctx (node d ctx) n := by
  cases n with
  | select s =>
    simp only [Node.children, List.forall_mem_cons, List.forall_mem_append, Option.mem_toList,
      Node.searched_selectList] at text
    obtain ⟨list, ⟨⟨⟨⟨source, filter⟩, grouping⟩, having⟩, order⟩, -⟩ := text
    have source : (s.source.map Node.searched).map (node d ctx) = s.source.map (node d ctx) := by
      rw [Option.map_map]
      exact Option.map_congr source
    have grouping : (s.grouping.map (·.map Node.searched)).map
        (fun exprs => node d ctx (.groupBy exprs)) =
          s.grouping.map fun exprs => node d ctx (.groupBy exprs) := by
      rw [Option.map_map]
      refine Option.map_congr fun exprs given => ?_
      have same := grouping (.groupBy exprs) (Option.mem_map_of_mem _ given)
      rwa [Node.searched_groupBy] at same
    simp only [Node.mapParts, Select.mapParts, defaultRule, list, source,
      condition?_searched filter, grouping, condition?_searched having, order?_searched order]
  | selectList l =>
    simp only [Node.mapParts, defaultRule, SelectList.mapExprs, List.map_map]
    congr 1
    refine List.map_congr_left fun item member => ?_
    have expr := operand_searched (text item.expr (List.mem_map_of_mem member))
    exact congrArg (selectItem item.aliasName) expr
  | table _ | column _ | literal _ | limit _ => rfl
  | join type left right condition =>
    simp only [Node.children, List.forall_mem_cons] at text
    obtain ⟨left, right, condition, -⟩ := text
    simp only [Node.mapParts, defaultRule, Node.kind_searched, left, right,
      condition_searched condition]
  | subSelect s aliasName =>
    simp only [Node.children, List.forall_mem_cons, Node.searched_select] at text
    simp only [Node.mapParts, defaultRule, text.1]
  | and operands | or operands =>
    have each : ∀ o ∈ operands, node d ctx o.searched = node d ctx o := text
    simp only [Node.mapParts, defaultRule, connective_map fun o _ => o.kind_searched,
      conditions_searched each]
  | not operand =>
    have condition := condition_searched (text operand (by simp [Node.children]))
    simp only [Node.mapParts, defaultRule, condition]
  | comparison op left right | regexpLike left right =>
    simp only [Node.children, List.forall_mem_cons] at text
    obtain ⟨left, right, -⟩ := text
    simp only [Node.mapParts, defaultRule, operand_searched left, operand_searched right]
  | between expr low high =>
    simp only [Node.children, List.forall_mem_cons] at text
    obtain ⟨expr, low, high, -⟩ := text
    simp only [Node.mapParts, defaultRule, operand_searched expr, operand_searched low,
      operand_searched high]
  | like expr pattern escape =>
    simp only [Node.children, List.forall_mem_cons, Option.mem_toList] at text
    obtain ⟨expr, pattern, escape⟩ := text
    simp only [Node.mapParts, defaultRule, operand_searched expr, operand_searched pattern,
      operand?_searched escape]
  | inList expr values =>
    simp only [Node.children, List.forall_mem_cons] at text
    obtain ⟨expr, values⟩ := text
    simp only [Node.mapParts, defaultRule, operand_searched expr, operands_searched values]
  | inSubquery expr s =>
    simp only [Node.children, List.forall_mem_cons, Node.searched_select] at text
    obtain ⟨expr, statement, -⟩ := text
    simp only [Node.mapParts, defaultRule, operand_searched expr, statement]
  | isNull expr | isNotNull expr | extract _ expr | cast expr _ =>
    have operand := operand_searched (text expr (by simp [Node.children]))
    simp only [Node.mapParts, defaultRule, operand]
  | function name args | groupBy args =>
    have each : ∀ a ∈ args, node d ctx a.searched = node d ctx a := text
    simp only [Node.mapParts, defaultRule, operands_searched each]
  | case basis branches otherwise =>
    simp only [Node.children, List.forall_mem_append, Option.mem_toList] at text
    obtain ⟨⟨first, each⟩, last⟩ := text
    have branches : (branches.map (·.mapParts Node.searched)).map (fun b =>
        (asCondition d basis.isSome b.condition (node d ctx b.condition),
          asOperand d b.result (node d ctx b.result))) =
        branches.map fun b => (asCondition d basis.isSome b.condition (node d ctx b.condition),
          asOperand d b.result (node d ctx b.result)) := by
      rw [List.map_map]
      refine List.map_congr_left fun b member => ?_
      have condition := each b.condition (List.mem_flatMap.mpr ⟨b, member, by simp⟩)
      have result := each b.result (List.mem_flatMap.mpr ⟨b, member, by simp⟩)
      simp only [Function.comp, Branch.mapParts, asCondition, operand_searched condition,
        condition_searched condition, operand_searched result]
    simp only [Node.mapParts, defaultRule, Option.isSome_map, operand?_searched first, branches,
      operand?_searched last]
  | aggregate name distinct args filter =>
    simp only [Node.children, List.forall_mem_append, Option.mem_toList] at text
    obtain ⟨args, filter⟩ := text
    simp only [Node.mapParts, defaultRule, operands_searched args, condition?_searched filter]
  | groupConcat arg distinct order separator =>
    simp only [Node.children, List.forall_mem_cons, Option.mem_toList] at text
    obtain ⟨arg, order⟩ := text
    simp only [Node.mapParts, defaultRule, operand_searched arg, order?_searched order]
  | window name args partition order frame =>
    simp only [Node.children, List.forall_mem_append, Option.mem_toList] at text
    obtain ⟨⟨args, partition⟩, order⟩ := text
    simp only [Node.mapParts, defaultRule, operands_searched args, operands_searched partition,
      order?_searched order]
  | orderBy keys =>
    simp only [Node.mapParts, defaultRule, List.map_map]
    congr 1
    refine List.map_congr_left fun key member => ?_
    have expr := operand_searched (text key.expr (List.mem_map_of_mem member))
    exact congrArg (sortKey d key.ascending key.nullsLast) expr

/-! ## The tree -/

/-- A tree and its searched form have the same text. -/
theorem node_searched (lacks : d.has .simpleCase = false) (unmarked : .comparison ∉ d.marked)
    {n : Node} (built : n.WellFormed) : node d ctx n.searched = node d ctx n := by
  induction n using Node.induction with
  | step n below =>
    have text : ∀ c ∈ n.children, node d ctx c.searched = node d ctx c :=
      fun c child => below c child (built.child child)
    have branched := built.root.hasBranches.mapParts Node.searched
    rw [Node.searched_eq, node_searchCase lacks unmarked branched, node_eq, node_eq d ctx n,
      Node.kind_mapParts, defaultRule_searched text]

end Render

/-- In a dialect that lacks a CASE with a basis, a tree has the text of its searched form, in which
no CASE has a basis, or is refused like it. Comparisons must be written by the standard rule; other
kinds of nodes may have marks. -/
theorem Dialect.generate_searched {d : Dialect} (lacks : d.has .simpleCase = false)
    (unmarked : .comparison ∉ d.marked) (ctx : Context) {n : Node} (built : n.WellFormed) :
    n.searched.Everywhere Node.HasNoBasis ∧
      d.generate ctx (some n.searched) = d.generate ctx (some n) := by
  refine ⟨n.searched_hasNoBasis, ?_⟩
  rw [generate, generate, Render.node_searched lacks unmarked built]

/-- A CASE as the basis of another, in a dialect that has no truth values either, so that the
condition among the values becomes a CASE of its own. -/
theorem Dialect.generate_searched_nested :
    let profile : Profile :=
      { supported := CapabilitySet.full.without [.simpleCase, .booleanLiterals] }
    let d := Dialect.custom "demo" profile [] {}
    let column (name : String) : Node := .column { table := "T", name }
    let equal : Node → Node → Node := .comparison .equal
    let inner : Node := .case (some (column "A")) [⟨column "B", column "C"⟩] none
    let outer : Node :=
      .case (some inner) [⟨.isNull (column "D"), column "E"⟩] (some (column "F"))
    let innerSearched : Node := .case none [⟨equal (column "A") (column "B"), column "C"⟩] none
    let outerSearched : Node :=
      .case none [⟨equal innerSearched (.isNull (column "D")), column "E"⟩] (some (column "F"))
    d.has .simpleCase = false ∧ outer.WellFormed ∧ outer.searched = outerSearched ∧
      d.generate {} (some outerSearched) = d.generate {} (some outer) := by
  intro profile d column equal inner outer innerSearched outerSearched
  have lacks : d.has .simpleCase = false := by decide
  have leaf (name : String) (named : name ≠ "") : (column name).WellFormed :=
    (Node.WellPlaced.column ⟨named, by simp⟩).wellFormed
  have isNull : (Node.isNull (column "D")).WellFormed :=
    Node.everywhere_iff.mpr ⟨trivial, List.forall_mem_singleton.mpr (leaf "D" (by decide))⟩
  have innerBuilt : inner.WellFormed := by
    refine Node.everywhere_iff.mpr ⟨List.cons_ne_nil _ _, ?_⟩
    simpa [inner, Node.children] using
      ⟨leaf "A" (by decide), leaf "B" (by decide), leaf "C" (by decide)⟩
  have built : outer.WellFormed := by
    refine Node.everywhere_iff.mpr ⟨List.cons_ne_nil _ _, ?_⟩
    simpa [outer, Node.children] using
      ⟨innerBuilt, isNull, leaf "E" (by decide), leaf "F" (by decide)⟩
  have kept (name : String) : (column name).searched = column name := Node.searched_eq _
  have keptNull : (Node.isNull (column "D")).searched = .isNull (column "D") := by
    rw [Node.searched_eq, Node.mapParts, kept]
    rfl
  have innerRewritten : inner.searched = innerSearched := by
    rw [Node.searched_eq]
    simp [inner, innerSearched, equal, Node.mapParts, Branch.mapParts, Node.searchCase, kept]
  have searched : outer.searched = outerSearched := by
    rw [Node.searched_eq]
    simp [outer, outerSearched, equal, Node.mapParts, Branch.mapParts, Node.searchCase, kept,
      keptNull, innerRewritten]
  have same := (generate_searched lacks (by decide) {} built).2
  exact ⟨lacks, built, searched, searched ▸ same⟩

end Pushdown

import Pushdown.Proofs.Syntax.Identifiers

/-!
# Positions in a tree

A child of a node stands where a value is expected, where a condition is expected, or it is a
clause that is neither. Where conditions are no values, a condition in the place of a value is
written twice, and `Node.written` lists the nodes of a tree as often as their text is written.
-/

namespace Pushdown.Node

/-- The children of a node that stand where a condition is expected. -/
def conditions : Node → List Node
  | select s => s.filter.toList ++ s.having.toList
  | join _ _ _ condition => [condition]
  | and operands | or operands => operands
  | not operand => [operand]
  | case none branches _ => branches.map (·.condition)
  | aggregate _ _ _ filter => filter.toList
  | _ => []

/-- The children of a node that are neither values nor conditions. -/
def clauses : Node → List Node
  | select s =>
    selectList s.list :: (s.source.toList ++ (s.grouping.map groupBy).toList ++
      (s.order.map orderBy).toList ++ (s.limit.map limit).toList)
  | join _ left right _ => [left, right]
  | subSelect s _ | inSubquery _ s => [select s]
  | groupConcat _ _ order _ | window _ _ _ order _ => (order.map orderBy).toList
  | _ => []

/-- Every child stands in exactly one position. -/
theorem children_perm (n : Node) :
    n.children.Perm (n.values ++ (n.conditions ++ n.clauses)) := by
  classical
  cases n with
  | select s =>
    refine List.perm_iff_count.mpr fun c => ?_
    simp only [children, values, conditions, clauses, List.nil_append, List.count_cons,
      List.count_append]
    omega
  | join type left right condition =>
    exact @List.perm_append_comm _ [left, right] [condition]
  | case basis branches otherwise =>
    cases basis with
    | some basis => simp [children, values, conditions, clauses]
    | none =>
      refine List.perm_iff_count.mpr fun c => ?_
      simp only [children, values, conditions, clauses, Option.toList_none, List.nil_append,
        Option.isSome_none, Bool.false_eq_true, if_false, List.append_nil, List.count_append]
      induction branches with
      | nil => rfl
      | cons b branches ih =>
        simp only [List.flatMap_cons, List.map_cons, List.count_append, List.count_cons,
          List.count_nil] at ih ⊢
        omega
  | _ => simp [children, values, conditions, clauses]

theorem mem_children_of_mem_conditions {c n : Node} (h : c ∈ n.conditions) : c ∈ n.children :=
  n.children_perm.mem_iff.mpr (by simp [h])

theorem mem_children_of_mem_clauses {c n : Node} (h : c ∈ n.clauses) : c ∈ n.children :=
  n.children_perm.mem_iff.mpr (by simp [h])

/-! ## Nodes as often as they are written -/

/-- How often the text of a node is written where a value is expected. -/
def copies (d : Dialect) (n : Node) : Nat :=
  if n.isPredicate ∧ d.has .booleanLiterals = false then 2 else 1

/-- The nodes of a tree, each as often as its text is written. -/
def written (d : Dialect) (n : Node) : List Node :=
  n :: (n.values.attach.flatMap (fun v => (List.replicate (v.1.copies d) (v.1.written d)).flatten) ++
    (n.conditions ++ n.clauses).attach.flatMap fun c => c.1.written d)
termination_by sizeOf n
decreasing_by
  · exact sizeOf_lt_of_mem_children (mem_children_of_mem_values v.2)
  · rcases List.mem_append.mp c.2 with h | h
    · exact sizeOf_lt_of_mem_children (mem_children_of_mem_conditions h)
    · exact sizeOf_lt_of_mem_children (mem_children_of_mem_clauses h)

variable {d : Dialect}

theorem written_eq (n : Node) : n.written d =
    n :: (n.values.flatMap (fun v => (List.replicate (v.copies d) (v.written d)).flatten) ++
      (n.conditions ++ n.clauses).flatMap (written d)) := by
  rw [written]
  simp [List.flatMap_def]

/-- Where no text is written twice, the nodes are those of a walk from the root down. -/
theorem written_perm {n : Node}
    (once : d.has .booleanLiterals ∨ n.ValuesOnly) : (n.written d).Perm n.nodes := by
  induction n using Node.induction with
  | step n ih =>
    have single (v : Node) (value : v ∈ n.values) : v.copies d = 1 := by
      unfold copies
      rcases once with has | only
      · simp [has]
      · simp [only.root v value]
    have below (c : Node) (child : c ∈ n.children) : (c.written d).Perm c.nodes :=
      ih c child (once.imp_right fun only => only.child child)
    have values : n.values.flatMap (fun v => (List.replicate (v.copies d) (v.written d)).flatten) =
        n.values.flatMap (written d) :=
      List.flatMap_congr fun v value => by simp [single v value]
    rw [written_eq, values, ← List.flatMap_append, nodes_eq]
    refine .cons _ ((n.children_perm.symm.flatMap_right _).trans ?_)
    exact List.Perm.flatMap_left _ below

end Pushdown.Node

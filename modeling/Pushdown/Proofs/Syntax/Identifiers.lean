import Mathlib.Data.List.Perm.Basic
import Pushdown.Proofs.Syntax.WellFormed
import Pushdown.Sql.Unsupported

/-!
# The identifiers of a tree

A walk from the root down meets the identifiers of a tree in an order of their own: those of a
column or table where the node is visited, and an alias behind the tree that it names. Which names
qualify a table depends on the dialect and the context.
-/

namespace Pushdown

/-- A name, unless it is empty. -/
def givenName (name : String) : List String := if name = "" then [] else [name]

/-- The name of a table behind those of its catalog and schema, as far as the dialect writes them
and the context has them. -/
def Context.qualify (ctx : Context) (d : Dialect) (table : String) : List String :=
  (if d.profile.qualifyCatalog then givenName ctx.catalog else []) ++
    (if d.profile.qualifySchema then givenName ctx.schema else []) ++ [table]

/-- The name of a column behind what qualifies it: the alias of its FROM item or, where there are
several tables, the qualified name of its table. -/
def Column.identifiers (d : Dialect) (ctx : Context) (c : Column) : List String :=
  (if c.aliasName ≠ "" then [c.aliasName]
    else if ctx.multipleTables then ctx.qualify d c.table else []) ++ [c.name]

/-- The qualified name of a table with its alias. -/
def Table.identifiers (d : Dialect) (ctx : Context) (t : Table) : List String :=
  ctx.qualify d t.name ++ givenName t.aliasName

namespace Node

variable {d : Dialect} {ctx : Context}

/-- The identifiers in front of the children of a node. -/
def leading (d : Dialect) (ctx : Context) : Node → List String
  | column c => c.identifiers d ctx
  | table t => t.identifiers d ctx
  | _ => []

/-- The children of a node, each with the aliases behind it. -/
def labelled : Node → List (Node × List String)
  | selectList l => l.items.map fun item => (item.expr, givenName item.aliasName)
  | subSelect s aliasName => [(select s, [aliasName])]
  | n => n.children.map (·, [])

theorem map_fst_labelled (n : Node) : n.labelled.map (·.1) = n.children := by
  cases n <;> simp [labelled, children, Function.comp_def]

/-- The identifiers of a tree in the order of a walk from the root down. -/
def identifiers (d : Dialect) (ctx : Context) (n : Node) : List String :=
  n.leading d ctx ++
    n.labelled.attach.flatMap fun part => part.1.1.identifiers d ctx ++ part.1.2
termination_by sizeOf n
decreasing_by
  refine sizeOf_lt_of_mem_children ?_
  rw [← map_fst_labelled]
  exact List.mem_map_of_mem part.2

theorem identifiers_eq (n : Node) : n.identifiers d ctx =
    n.leading d ctx ++ n.labelled.flatMap fun part => part.1.identifiers d ctx ++ part.2 := by
  have listed : n.labelled.attach.map (fun part => part.1.1.identifiers d ctx ++ part.1.2) =
      n.labelled.map fun part => part.1.identifiers d ctx ++ part.2 :=
    List.attach_map_val (f := fun part : Node × List String => part.1.identifiers d ctx ++ part.2)
  rw [identifiers, List.flatMap_def, List.flatMap_def, listed]

@[simp] theorem identifiers_column (c : Column) :
    (column c).identifiers d ctx = c.identifiers d ctx := by
  rw [identifiers_eq]
  simp [leading, labelled, children]

@[simp] theorem identifiers_table (t : Table) :
    (table t).identifiers d ctx = t.identifiers d ctx := by
  rw [identifiers_eq]
  simp [leading, labelled, children]

@[simp] theorem identifiers_selectList (l : SelectList Node) :
    (selectList l).identifiers d ctx =
      l.items.flatMap fun item => item.expr.identifiers d ctx ++ givenName item.aliasName := by
  rw [identifiers_eq]
  simp [leading, labelled, List.flatMap_map]

@[simp] theorem identifiers_subSelect (s : Statement) (aliasName : String) :
    (subSelect s aliasName).identifiers d ctx = (select s).identifiers d ctx ++ [aliasName] := by
  rw [identifiers_eq]
  simp [leading, labelled]

/-- Most nodes have no identifiers but those of their children. -/
theorem identifiers_eq_children {n : Node}
    (plain : n.kind ∉ [.column, .table, .selectList, .subSelect]) :
    n.identifiers d ctx = n.children.flatMap (identifiers d ctx) := by
  rw [identifiers_eq]
  cases n <;> simp_all [Node.kind, leading, labelled, List.flatMap_map]

/-- The walk meets the identifiers of each node exactly once. -/
theorem identifiers_perm (n : Node) : (n.identifiers d ctx).Perm
    (n.nodes.flatMap fun m => m.leading d ctx ++ m.labelled.flatMap (·.2)) := by
  induction n using Node.induction with
  | step n ih =>
    rw [identifiers_eq, nodes_eq, List.flatMap_cons, List.append_assoc, List.flatMap_assoc]
    refine .append_left _ ?_
    refine (List.flatMap_append_perm _ _ _).symm.trans (List.perm_append_comm.trans ?_)
    refine .append_left _ ?_
    rw [← map_fst_labelled, List.flatMap_map]
    refine List.Perm.flatMap_left _ fun part member => ih part.1 ?_
    rw [← map_fst_labelled]
    exact List.mem_map_of_mem member

/-! ## Value positions -/

/-- The children of a node that stand where a value is expected. -/
def values : Node → List Node
  | select _ | join .. | subSelect .. | and _ | or _ | not _ => []
  | inSubquery expr _ => [expr]
  | case basis branches otherwise =>
    basis.toList ++ branches.flatMap (fun b =>
      if basis.isSome then [b.condition, b.result] else [b.result]) ++ otherwise.toList
  | aggregate _ _ args _ => args
  | groupConcat arg .. => [arg]
  | window _ args partition _ _ => args ++ partition
  | n => n.children

theorem mem_children_of_mem_values {n v : Node} (h : v ∈ n.values) : v ∈ n.children := by
  cases n with
  | case basis branches otherwise =>
    simp only [values, children, List.mem_append, List.mem_flatMap] at h ⊢
    rcases h with (h | ⟨b, member, h⟩) | h
    · exact .inl (.inl h)
    · refine .inl (.inr ⟨b, member, ?_⟩)
      split at h <;> simp_all
    · exact .inr h
  | window name args partition order frame =>
    simp only [values, children, List.mem_append] at h ⊢
    exact .inl h
  | _ => simp_all [values, children]

/-- No condition stands where a value is expected. -/
def ValuesOnly (n : Node) : Prop := n.Everywhere fun m => ∀ v ∈ m.values, v.isPredicate = false

end Node

end Pushdown

import Mathlib.Algebra.Order.BigOperators.Group.List
import Pushdown.Proofs.Sql.Length
import Pushdown.Proofs.Sql.Occurrence

/-!
# How long statements become

A statement is at most linear in its tree if every node counts as often as its text is written.
That is once, except below conditions that a dialect without truth values has to turn into values:
such a condition is written twice, and where conditions of this kind are nested the text doubles
with every level.
-/

namespace Pushdown

/-! ## The weight of a tree -/

namespace Node

/-- The names, aliases, constants and separators of a node. -/
def texts : Node → List String
  | selectList l => l.items.map (·.aliasName)
  | table t => [t.name, t.aliasName]
  | subSelect _ aliasName => [aliasName]
  | column c => [c.table, c.aliasName, c.name]
  | literal l => [l.value]
  | function name _ | aggregate name _ _ _ | window name _ _ _ _ => [name]
  | groupConcat _ _ _ separator => separator.toList
  | _ => []

/-- What a node counts: one, the sizes of its texts and, if it is a table or a column, those of the
catalog and the schema and one more. -/
def ownWeight (size : String → Nat) (ctx : Context) (n : Node) : Nat :=
  1 + (n.texts.map size).sum +
    if n.kind = .table ∨ n.kind = .column then size ctx.catalog + size ctx.schema + 1 else 0

/-- What some nodes count together. -/
def weight (size : String → Nat) (ctx : Context) (nodes : List Node) : Nat :=
  (nodes.map (ownWeight size ctx)).sum

/-- The numbers that are written in the text of a node. -/
def numbers : Node → List Int
  | cast _ type => [type.precision, type.scale, type.size]
  | window _ _ _ _ frame => frame.toList.flatMap Render.frameOffsets
  | limit l => [l.count, l.offset]
  | _ => []

/-- Every number is one that a machine word holds. -/
def FitsWords (n : Node) : Prop := n.Everywhere fun m => ∀ i ∈ m.numbers, Text.fitsInt64 i

variable {size : String → Nat} {ctx : Context}

@[simp] theorem weight_nil : weight size ctx [] = 0 := rfl

@[simp] theorem weight_cons (n : Node) (nodes : List Node) :
    weight size ctx (n :: nodes) = n.ownWeight size ctx + weight size ctx nodes := by
  simp [weight]

@[simp] theorem weight_append (nodes others : List Node) :
    weight size ctx (nodes ++ others) = weight size ctx nodes + weight size ctx others := by
  simp [weight]

theorem weight_perm {nodes others : List Node} (same : nodes.Perm others) :
    weight size ctx nodes = weight size ctx others := (same.map _).sum_eq

theorem weight_copies (count : Nat) (nodes : List Node) :
    weight size ctx (List.replicate count nodes).flatten = count * weight size ctx nodes := by
  induction count with
  | zero => simp
  | succ count ih => simp [List.replicate_succ, ih, Nat.succ_mul, Nat.add_comm]

theorem weight_pos {d : Dialect} (n : Node) : 0 < weight size ctx (n.written d) := by
  rw [written_eq, weight_cons]
  unfold ownWeight
  omega

/-- A larger size makes a tree no lighter. -/
theorem weight_mono {other : String → Nat} (le : ∀ text, size text ≤ other text)
    (nodes : List Node) : weight size ctx nodes ≤ weight other ctx nodes := by
  have texts (l : List String) : (l.map size).sum ≤ (l.map other).sum :=
    List.sum_le_sum fun text _ => le text
  refine List.sum_le_sum fun n _ => ?_
  have := texts n.texts
  have := le ctx.catalog
  have := le ctx.schema
  unfold ownWeight
  split <;> omega

end Node

/-! ## Bytes -/

theorem utf8ByteSize_ofList (chars : List Char) :
    (String.ofList chars).utf8ByteSize = (chars.map Char.utf8Size).sum := by
  induction chars with
  | nil => rfl
  | cons c chars ih => simp [String.ofList_cons, ih]

theorem length_le_utf8ByteSize (text : String) : text.length ≤ text.utf8ByteSize := by
  rw [← text.ofList_toList, utf8ByteSize_ofList, String.length_ofList]
  have := List.length_le_sum_of_one_le (text.toList.map Char.utf8Size)
    (by simpa using fun c _ => c.utf8Size_pos)
  simpa using this

theorem utf8ByteSize_le_length (text : String) : text.utf8ByteSize ≤ 4 * text.length := by
  rw [← text.ofList_toList, utf8ByteSize_ofList, String.length_ofList]
  have := List.sum_le_card_nsmul (text.toList.map Char.utf8Size) 4 (by simp [Char.utf8Size_le_four])
  simpa [Nat.mul_comm] using this

example : "𝄞♭".utf8ByteSize = 7 ∧ "𝄞♭".length = 2 := by decide +kernel

namespace Render

open Sql (raw joinWith)

variable {d : Dialect} {ctx : Context} {quoteNames : Bool} {n : Node} {s : Sql}

/-! ## Names and constants -/

theorem size_tableName_le (marks : Lexer.HasMarks d.profile) (name : String) :
    (tableName d ctx name).size d quoteNames ≤
      2 * (ctx.catalog.length + ctx.schema.length + name.length) + 9 := by
  have catalog := Profile.length_writeName_le marks quoteNames ctx.catalog
  have schema := Profile.length_writeName_le marks quoteNames ctx.schema
  have table := Profile.length_writeName_le marks quoteNames name
  unfold tableName
  refine (Sql.size_joinWith_le d quoteNames "." _).trans ?_
  have dot : ".".length = 1 := rfl
  simp only [List.map_append, List.sum_append]
  repeat' split
  all_goals
    simp [Fragment.write, dot]
    omega

theorem size_table_le (marks : Lexer.HasMarks d.profile) (t : Table) :
    (table d ctx t).size d quoteNames ≤
      2 * (ctx.catalog.length + ctx.schema.length + t.name.length + t.aliasName.length) + 15 := by
  have name := @size_tableName_le d ctx quoteNames marks t.name
  have aliased := @size_tableAlias_le d quoteNames marks t.aliasName
  unfold table
  split
  · rw [Sql.size_append, Sql.size_nil]
    omega
  · rw [Sql.size_append]
    omega

theorem size_column_le (marks : Lexer.HasMarks d.profile) (c : Column) :
    (column d ctx c).size d quoteNames ≤ 2 * (ctx.catalog.length + ctx.schema.length +
      c.table.length + c.aliasName.length + c.name.length) + 12 := by
  have name := Profile.length_writeName_le marks quoteNames c.name
  have aliased := Profile.length_writeName_le marks quoteNames c.aliasName
  have table := @size_tableName_le d ctx quoteNames marks c.table
  unfold column
  repeat' split
  all_goals
    simp [Fragment.write]
    omega

theorem size_literal_le (concise : d.Concise) {l : Literal} (format : l.KeepsFormat)
    (h : literal d l = .ok s) : s.size d quoteNames ≤ 2 * l.value.length + 40 := by
  have quoted := d.profile.length_quotedText_le l.value
  obtain ⟨_, _, _, dates⟩ := concise.dates
  obtain ⟨_, _, _, timestamps⟩ := concise.timestamps
  have date := @Sql.size_fill_le d quoteNames _ _ _ _ dates l.value
  have timestamp := @Sql.size_fill_le d quoteNames _ _ _ _ timestamps l.value
  have dateLiteral := concise.texts_short d.profile.dateLiteral (by simp [Profile.ownTexts])
  have timestampLiteral :=
    concise.texts_short d.profile.timestampLiteral (by simp [Profile.ownTexts])
  cases type : l.type <;>
    simp only [literal, type, Except.ok.injEq, bind_eq_ok, require_eq_ok, pure_eq_ok] at h
  case null =>
    subst h
    simp
  case bool =>
    split at h
    · have spelled : (Text.upper l.value).length ≤ 5 := by
        simp only [Literal.KeepsFormat, type] at format
        rcases format with same | same <;> rw [same] <;> decide
      cases h
      simp [String.length_toList]
      omega
    · cases h
      split <;> simp
  case exactNumeric | double =>
    subst h
    simp [String.length_toList]
    omega
  case string =>
    subst h
    simp [Fragment.write]
    omega
  case date | timestamp | timestampUtc =>
    subst h
    omega
  case interval =>
    obtain ⟨-, -, rfl⟩ := h
    have range : l.interval.range.qualifier.length ≤ 13 := by
      unfold IntervalRange.qualifier
      split <;> decide
    simp [Fragment.write, String.length_toList]
    omega
  case other name => simp [refuse] at h

/-! ## One node -/

theorem toll_selectItems_le (marks : Lexer.HasMarks d.profile) (items : List (SelectItem Node))
    (rendered : SelectItem Node → Result Sql) :
    toll d quoteNames (items.map fun item => selectItem item.aliasName (rendered item)) ≤
      toll d quoteNames (items.map rendered) +
        8 * ((items.map (·.aliasName)).map String.length).sum := by
  induction items with
  | nil => simp
  | cons item items ih =>
    have := @cost_selectItem_le d quoteNames marks item.aliasName (rendered item)
    simp only [List.map_cons, toll_cons, List.sum_cons]
    omega

theorem size_orderBy_le {keys : List (SortKey Node)} {rendered : SortKey Node → Result Sql}
    (h : orderBy (keys.map fun key =>
      sortKey d key.ascending key.nullsLast (rendered key)) = .ok s) :
    s.size d quoteNames ≤ toll d quoteNames (keys.map rendered) + 9 := by
  obtain ⟨parts, same, rfl⟩ := orderBy_eq_ok.mp h
  have comma : ", ".length = 2 := rfl
  have joined := Sql.size_joinWith_le d quoteNames ", " parts
  have list : (parts.map fun s => s.size d quoteNames + ", ".length).sum ≤
      toll d quoteNames (keys.map rendered) := by
    clear h joined
    induction keys generalizing parts with
    | nil =>
      obtain rfl : parts = [] := by simpa using same.symm
      simp
    | cons key keys ih =>
      cases parts with
      | nil => simp at same
      | cons part parts =>
        simp only [List.map_cons, List.cons.injEq] at same
        have first := @cost_sortKey_le d quoteNames key.ascending key.nullsLast (rendered key)
        rw [same.1, cost_ok] at first
        have rest := ih parts same.2
        simp only [List.map_cons, List.sum_cons, toll_cons]
        omega
  simp
  omega

theorem toll_branches (branches : List (Branch Node)) (condition result : Branch Node → Result Sql) :
    toll d quoteNames (branchParts (branches.map fun b => (condition b, result b))) =
      toll d quoteNames (branches.map condition) + toll d quoteNames (branches.map result) := by
  induction branches with
  | nil => simp [branchParts]
  | cons b branches ih =>
    simp only [List.map_cons, branchParts_cons, toll_cons, ih]
    omega

/-- What a node adds of its own to its parts is in proportion to its own weight. -/
theorem size_node_le (concise : d.Concise) (rules : n.KeepsRules)
    (fits : ∀ i ∈ n.numbers, Text.fitsInt64 i) (h : node d ctx n = .ok s) :
    s.size d quoteNames + 80 ≤
      250 * n.ownWeight String.length ctx + toll d quoteNames (parts d ctx n) := by
  have unmarked := concise.unmarked
  have marks := concise.legible.marks
  have own : 1 + (n.texts.map String.length).sum ≤ n.ownWeight String.length ctx := by
    unfold Node.ownWeight
    omega
  cases n with
  | select statement =>
    rw [node_select unmarked] at h
    have := @size_select_le d quoteNames _ concise _ _ _ _ _ _ _ h
    simp [parts, Node.values, Node.conditions, Node.clauses, Option.toList_map,
      Function.comp_def] at this own ⊢
    omega
  | selectList l =>
    rw [node_selectList unmarked] at h
    have := @size_selectList_le d quoteNames _ _ _ h
    have := @toll_selectItems_le d quoteNames marks l.items fun item =>
      asOperand d item.expr (node d ctx item.expr)
    simp [parts, Node.values, Node.conditions, Node.clauses, Node.children, Node.texts,
      Function.comp_def] at this own ⊢
    omega
  | table t =>
    rw [node_table unmarked] at h
    cases h
    have := @size_table_le d ctx quoteNames marks t
    simp [Node.ownWeight, Node.kind, Node.texts]
    omega
  | column c =>
    rw [node_column unmarked] at h
    cases h
    have := @size_column_le d ctx quoteNames marks c
    simp [Node.ownWeight, Node.kind, Node.texts]
    omega
  | literal l =>
    rw [node_literal unmarked] at h
    have := @size_literal_le d quoteNames _ concise _ rules h
    simp [Node.texts] at own ⊢
    omega
  | join type left right condition =>
    rw [node_join unmarked] at h
    have := @size_join_le d quoteNames _ _ _ _ _ _ h
    simp [parts, Node.values, Node.conditions, Node.clauses] at this ⊢
    omega
  | subSelect statement aliasName =>
    rw [node_subSelect unmarked] at h
    have := @size_subSelect_le d quoteNames _ marks _ _ h
    simp [parts, Node.values, Node.conditions, Node.clauses, Node.texts] at this own ⊢
    omega
  | and operands =>
    rw [node_and unmarked] at h
    have := @size_connective_le d quoteNames _ _ (by decide) _ _ (by simp) h
    simp [parts, Node.values, Node.conditions, Node.clauses]
    omega
  | or operands =>
    rw [node_or unmarked] at h
    have := @size_connective_le d quoteNames _ _ (by decide) _ _ (by simp) h
    simp [parts, Node.values, Node.conditions, Node.clauses]
    omega
  | not operand =>
    rw [node_not unmarked] at h
    have := @size_not_le d quoteNames _ _ h
    simp [parts, Node.values, Node.conditions, Node.clauses] at this ⊢
    omega
  | comparison op left right =>
    rw [node_comparison unmarked] at h
    have := @size_comparison_le d quoteNames _ _ rules _ _ h
    simp [parts, Node.values, Node.conditions, Node.clauses, Node.children] at this ⊢
    omega
  | like expr pattern escape =>
    rw [node_like unmarked] at h
    have := @size_like_le d quoteNames _ _ _ _ h
    simp [parts, Node.values, Node.conditions, Node.clauses, Node.children,
      Option.toList_map] at this ⊢
    omega
  | regexpLike expr pattern =>
    rw [node_regexpLike unmarked] at h
    have short := concise.texts_short d.profile.regexp.name (by simp [Profile.ownTexts])
    have := @size_apply_le d quoteNames _ _ _ short _ (regexpLike_eq_ok.mp h).2
    simp [parts, Node.values, Node.conditions, Node.clauses, Node.children] at this ⊢
    omega
  | between expr low high =>
    rw [node_between unmarked] at h
    have := @size_between_le d quoteNames _ _ _ _ h
    simp [parts, Node.values, Node.conditions, Node.clauses, Node.children] at this ⊢
    omega
  | inList expr values =>
    rw [node_inList unmarked] at h
    have := @size_inList_le d quoteNames _ _ _ h
    simp [parts, Node.values, Node.conditions, Node.clauses, Node.children] at this ⊢
    omega
  | inSubquery expr statement =>
    rw [node_inSubquery unmarked] at h
    have := @size_inSubquery_le d quoteNames _ _ _ h
    simp [parts, Node.values, Node.conditions, Node.clauses] at this ⊢
    omega
  | isNull expr =>
    rw [node_isNull unmarked] at h
    have := @size_isNull_le d quoteNames _ _ h
    simp [parts, Node.values, Node.conditions, Node.clauses, Node.children] at this ⊢
    omega
  | isNotNull expr =>
    rw [node_isNotNull unmarked] at h
    have := @size_isNotNull_le d quoteNames _ _ h
    simp [parts, Node.values, Node.conditions, Node.clauses, Node.children] at this ⊢
    omega
  | function name args =>
    rw [node_function unmarked] at h
    obtain ⟨spec, found, applied⟩ := function_eq_ok.mp h
    have short := concise.functions_short _ (Dictionary.mem_of_get? found)
    have := @size_apply_le d quoteNames _ _ _ short _ applied
    simp [parts, Node.values, Node.conditions, Node.clauses, Node.children] at this ⊢
    omega
  | extract part arg =>
    rw [node_extract unmarked] at h
    have := @size_extract_le d quoteNames _ _ rules _ h
    simp [parts, Node.values, Node.conditions, Node.clauses, Node.children] at this ⊢
    omega
  | cast arg type =>
    rw [node_cast unmarked] at h
    have := @size_cast_le d quoteNames _ concise _ fits _ h
    simp [parts, Node.values, Node.conditions, Node.clauses, Node.children] at this ⊢
    omega
  | case basis branches otherwise =>
    rw [node_case unmarked] at h
    have := @size_case_le d quoteNames _ concise.simpleCase _ _ _ h
    cases basis with
    | none =>
      rw [toll_append, toll_append, toll_branches] at this
      simp [parts, Node.values, Node.conditions, Node.clauses, Option.toList_map, asCondition,
        Function.comp_def, ← List.map_eq_flatMap] at this ⊢
      omega
    | some basis =>
      simp [parts, Node.values, Node.conditions, Node.clauses, Option.toList_map, asCondition,
        branchParts, List.flatMap_map, List.map_flatMap] at this ⊢
      omega
  | aggregate name distinct args filter =>
    rw [node_aggregate unmarked] at h
    have := @size_aggregate_le d quoteNames _ concise _ _ _ _ h
    simp [parts, Node.values, Node.conditions, Node.clauses, Option.toList_map] at this ⊢
    omega
  | groupConcat arg distinct order separator =>
    rw [node_groupConcat unmarked] at h
    have := @size_groupConcat_le d quoteNames _ _ _ _ _ h
    have counted : (separator.map String.length).getD 0 =
        ((Node.groupConcat arg distinct order separator).texts.map String.length).sum := by
      cases separator <;> simp [Node.texts]
    simp [parts, Node.values, Node.conditions, Node.clauses, Option.toList_map,
      Function.comp_def] at this ⊢
    omega
  | window name args partition order frame =>
    rw [node_window unmarked] at h
    have framed : ∀ f ∈ frame, (Render.frame f).length ≤ 80 := fun f given =>
      length_frame_le (fun i member => fits i (by simp_all [Node.numbers])) (rules.2.2 f given).2
    have := @size_window_le d quoteNames _ concise _ _ _ _ _ framed h
    simp [parts, Node.values, Node.conditions, Node.clauses, Option.toList_map,
      Function.comp_def] at this ⊢
    omega
  | groupBy exprs =>
    rw [node_groupBy unmarked] at h
    have := @size_groupBy_le d quoteNames _ _ h
    simp [parts, Node.values, Node.conditions, Node.clauses, Node.children] at this ⊢
    omega
  | orderBy keys =>
    rw [node_orderBy unmarked] at h
    have := @size_orderBy_le d quoteNames _ _
      (fun key => asOperand d key.expr (node d ctx key.expr)) h
    simp [parts, Node.values, Node.conditions, Node.clauses, Node.children,
      Function.comp_def] at this ⊢
    omega
  | limit l =>
    rw [node_limit unmarked] at h
    have fits : Text.fitsInt64 l.count ∧ Text.fitsInt64 l.offset :=
      ⟨fits _ (by simp [Node.numbers]), fits _ (by simp [Node.numbers])⟩
    have := @size_limit_le d quoteNames _ _ fits h
    omega

/-! ## Whole trees -/

theorem toll_map_le {children : List Node} {rendered : Node → Result Sql}
    {nodes : Node → List Node} (each : ∀ c ∈ children,
      cost d quoteNames (rendered c) + 35 ≤ 250 * Node.weight String.length ctx (nodes c)) :
    toll d quoteNames (children.map rendered) ≤
      250 * Node.weight String.length ctx (children.flatMap nodes) := by
  induction children with
  | nil => simp
  | cons c children ih =>
    rw [List.forall_mem_cons] at each
    have rest := ih each.2
    simp only [List.map_cons, toll_cons, List.flatMap_cons, Node.weight_append]
    omega

/-- The length of a text is in proportion to the weight of the nodes that it is written from. -/
theorem cost_node_le (concise : d.Concise) (wf : n.WellFormed) (fits : n.FitsWords) :
    cost d quoteNames (node d ctx n) + 80 ≤
      250 * Node.weight String.length ctx (n.written d) := by
  induction n using Node.induction with
  | step n ih =>
    cases outcome : node d ctx n with
    | error e =>
      have := @Node.weight_pos String.length ctx d n
      simp only [cost]
      omega
    | ok s =>
      have own := @size_node_le d ctx quoteNames _ _ concise wf.root fits.root outcome
      have below {c : Node} (child : c ∈ n.children) :=
        ih c child (wf.child child) (fits.child child)
      have values := @toll_map_le d ctx quoteNames n.values
        (fun v => asOperand d v (node d ctx v))
        (fun v => (List.replicate (v.copies d) (v.written d)).flatten) fun v value => by
          have bound := below (Node.mem_children_of_mem_values value)
          have operand := @cost_asOperand_le d quoteNames v (node d ctx v)
          have copies : v.copies d = 1 ∨ v.copies d = 2 := by
            unfold Node.copies
            split <;> simp
          rw [Node.weight_copies]
          rcases copies with once | twice
          · rw [once] at operand ⊢
            omega
          · rw [twice] at operand ⊢
            omega
      have conditions := @toll_map_le d ctx quoteNames n.conditions
        (fun c => asPredicate d c (node d ctx c)) (Node.written d) fun c condition => by
          have bound := below (Node.mem_children_of_mem_conditions condition)
          have predicate := @cost_asPredicate_le d quoteNames c (node d ctx c)
          omega
      have clauses := @toll_map_le d ctx quoteNames n.clauses (node d ctx) (Node.written d)
        fun c clause => by
          have bound := below (Node.mem_children_of_mem_clauses clause)
          omega
      rw [Node.written_eq, Node.weight_cons, Node.weight_append, List.flatMap_append,
        Node.weight_append]
      simp only [parts, toll_append, cost_ok] at own ⊢
      omega

end Render

/-! ## Nested tests -/

/-- Where conditions are no values, every test around a test doubles the text. -/
theorem Render.exists_nested {d : Dialect} {ctx : Context} (unmarked : d.marked = [])
    (lacks : d.has .booleanLiterals = false) (quoteNames : Bool) {n : Node} {s : Sql}
    (rendered : node d ctx n = .ok s) (k : Nat) :
    ∃ t, node d ctx (Node.isNull^[k + 1] n) = .ok t ∧
      2 ^ k * s.size d quoteNames ≤ t.size d quoteNames := by
  induction k with
  | zero =>
    refine ⟨operandText d n s ++ Sql.raw " IS NULL", ?_, ?_⟩
    · rw [Function.iterate_one, node_isNull unmarked, isNull_eq_ok]
      exact ⟨_, asOperand_eq_ok.mpr ⟨s, rendered, rfl⟩, rfl⟩
    · have inside : s.size d quoteNames ≤ (operandText d n s).size d quoteNames := by
        unfold operandText truthCase
        repeat' split
        all_goals
          simp
          try omega
      simp only [Nat.pow_zero, Nat.one_mul, Sql.size_append]
      omega
  | succ k ih =>
    obtain ⟨t, inner, doubled⟩ := ih
    have predicate : (Node.isNull^[k + 1] n).isPredicate := by
      rw [Function.iterate_succ_apply']
      rfl
    have twice : operandText d (Node.isNull^[k + 1] n) t = truthCase t := by
      rw [operandText, if_pos predicate, lacks, if_neg Bool.false_ne_true]
    refine ⟨truthCase t ++ Sql.raw " IS NULL", ?_, ?_⟩
    · rw [Function.iterate_succ_apply', node_isNull unmarked]
      exact isNull_eq_ok.mpr ⟨_, asOperand_eq_ok.mpr ⟨t, inner, twice⟩, rfl⟩
    · rw [Nat.pow_succ, Nat.mul_right_comm]
      simp [truthCase]
      omega

namespace Node

variable {n : Node}

theorem everywhere_nested {P : Node → Prop} (tests : ∀ m, P (isNull m)) (h : n.Everywhere P)
    (k : Nat) : (isNull^[k] n).Everywhere P := by
  induction k with
  | zero => exact h
  | succ k ih =>
    rw [Function.iterate_succ_apply', everywhere_iff]
    simpa [children] using ⟨tests _, ih⟩

theorem wellFormed_nested {c : Column} (named : c.name ≠ "" ∧ c.table ≠ "") (k : Nat) :
    (isNull^[k] (column c)).WellFormed :=
  everywhere_nested (fun _ => trivial) (WellPlaced.column named).wellFormed k

theorem fitsWords_nested (c : Column) (k : Nat) : (isNull^[k] (column c)).FitsWords :=
  everywhere_nested (by simp [numbers])
    (everywhere_iff.mpr ⟨by simp [numbers], by simp [children]⟩) k

theorem weight_nested (size : String → Nat) (ctx : Context) (k : Nat) :
    weight size ctx (isNull^[k] n).nodes = k + weight size ctx n.nodes := by
  induction k with
  | zero => simp
  | succ k ih =>
    rw [Function.iterate_succ_apply', nodes_eq, weight_cons]
    simp [children, ih, ownWeight, texts, kind]
    omega

end Node

/-! ## Generated statements -/

/-- The generated text is at most linear in the tree, in characters as in bytes, if every node
counts as often as its text is written. That is once in every dialect with truth values and in
every tree without a condition in the place of a value. -/
theorem Builtin.generate_size_le (b : Builtin) (notes : Notes)
    (mark : b = .generic → Text.trim (notes.text "identifierQuoteString") = "") (ctx : Context)
    {n : Node} (wf : n.WellFormed) (fits : n.FitsWords) {sql : String}
    (generated : (b.build notes).generate ctx (some n) = .ok sql) :
    ∀ size ∈ [String.length, String.utf8ByteSize],
      size sql ≤ 1000 * Node.weight size ctx (n.written (b.build notes)) ∧
      (b ≠ .sqlServer ∧ b ≠ .oracle ∨ n.ValuesOnly →
        size sql ≤ 1000 * Node.weight size ctx n.nodes) := by
  simp only [Dialect.generate, bind_eq_ok, pure_eq_ok] at generated
  obtain ⟨s, rendered, rfl⟩ := generated
  have bound := @Render.cost_node_le _ ctx ctx.quoteNames n (b.concise notes mark) wf fits
  rw [rendered, Render.cost_ok, Sql.size] at bound
  have written : ∀ size ∈ [String.length, String.utf8ByteSize],
      size (s.write (b.build notes).profile ctx.quoteNames) ≤
        1000 * Node.weight size ctx (n.written (b.build notes)) := by
    simp only [List.forall_mem_cons, List.not_mem_nil, false_imp_iff, implies_true, and_true]
    refine ⟨by omega, ?_⟩
    have bytes := utf8ByteSize_le_length (s.write (b.build notes).profile ctx.quoteNames)
    have heavier := @Node.weight_mono String.length ctx _ length_le_utf8ByteSize
      (n.written (b.build notes))
    omega
  refine fun size member => ⟨written size member, fun once => ?_⟩
  have same := Node.written_perm (once.imp_left (b.has_booleanLiterals_iff notes).mpr)
  rw [← Node.weight_perm same]
  exact written size member

/-- A condition in the place of a value, which is written twice. -/
theorem Builtin.generate_size_le_isNull :
    let n : Node := Node.isNull^[2] (.column { table := "T", name := "A" })
    let d := Builtin.sqlServer.build {}
    let sql := "CASE WHEN [A] IS NULL THEN 1 WHEN NOT ([A] IS NULL) THEN 0 END IS NULL"
    let ctx : Context := { quoteNames := true }
    d.generate ctx (some n) = .ok sql ∧
      sql.length ≤ 1000 * Node.weight String.length ctx (n.written d) := by
  intro n d sql ctx
  have generated : d.generate ctx (some n) = .ok sql := by
    rw [← toOption_eq_some]
    decide +kernel
  have wf : n.WellFormed := Node.wellFormed_nested (by decide) 2
  have fits : n.FitsWords := Node.fitsWords_nested _ 2
  exact ⟨generated,
    (Builtin.generate_size_le .sqlServer {} nofun ctx wf fits generated _ (by simp)).1⟩

/-- Sixteen nested tests of a column are longer than a thousand times the weight of their tree. -/
theorem Builtin.generate_size_nested :
    let n : Node := Node.isNull^[16] (.column { table := "T", name := "A" })
    let ctx : Context := { quoteNames := true }
    n.WellFormed ∧ n.FitsWords ∧
      ∃ sql, (Builtin.sqlServer.build {}).generate ctx (some n) = .ok sql ∧
        ∀ size ∈ [String.length, String.utf8ByteSize],
          1000 * Node.weight size ctx n.nodes < size sql := by
  intro n ctx
  have lacks : (Builtin.sqlServer.build {}).has .booleanLiterals = false := by decide +kernel
  obtain ⟨t, rendered, doubled⟩ := Render.exists_nested rfl lacks true
    (@Render.node_column _ ctx rfl { table := "T", name := "A" }) 15
  have column : Sql.size (Builtin.sqlServer.build {}) true
      (Render.column (Builtin.sqlServer.build {}) ctx { table := "T", name := "A" }) = 3 := by
    decide +kernel
  rw [column, Sql.size] at doubled
  have weight (size : String → Nat) (letters : size "T" = 1 ∧ size "A" = 1 ∧ size "" = 0) :
      Node.weight size ctx n.nodes = 20 := by
    rw [Node.weight_nested, Node.nodes_eq]
    simp [ctx, Node.children, Node.ownWeight, Node.texts, Node.kind, letters]
  refine ⟨Node.wellFormed_nested (by decide) 16, Node.fitsWords_nested _ 16,
    t.write (Builtin.sqlServer.build {}).profile true, ?_, ?_⟩
  · simp only [Dialect.generate, n, rendered]
    rfl
  · have bytes := length_le_utf8ByteSize (t.write (Builtin.sqlServer.build {}).profile true)
    simp only [List.forall_mem_cons, List.not_mem_nil, false_imp_iff, implies_true, and_true]
    rw [weight String.length (by decide), weight String.utf8ByteSize (by decide)]
    omega

end Pushdown

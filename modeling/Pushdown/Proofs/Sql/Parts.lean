import Pushdown.Proofs.Outcome
import Pushdown.Sql.Render

/-!
# What a rendered construct consists of

If a construct is rendered, so are its parts, and its text is put together from theirs. There is
one lemma for each function of the renderer, from which every property of rendered texts follows.
-/

namespace Pushdown.Render

open Sql (raw joinWith parens)

variable {d : Dialect} {s : Sql}

/-! ## Positions -/

/-- The text of a truth value where a condition is expected. -/
def truthText (l : Literal) : Sql := raw (if l.value = "true" then "1 = 1" else "1 = 0")

/-- Only constants and columns become comparisons. -/
theorem asPredicate_other {n : Node} (literal : n.kind ≠ .literal) (column : n.kind ≠ .column)
    (r : Result Sql) : asPredicate d n r = r := by
  unfold asPredicate
  split
  · rfl
  · split
    · exact absurd rfl literal
    · exact absurd rfl column
    · rfl

theorem asPredicate_eq_ok {n : Node} {rendered : Result Sql}
    (h : asPredicate d n rendered = .ok s) :
    rendered = .ok s ∨ d.has .booleanLiterals = false ∧
      ((∃ l, n = .literal l ∧ l.type = .bool ∧ s = truthText l) ∨
        ∃ c t, n = .column c ∧ c.type.kind = .boolean ∧ rendered = .ok t ∧
          s = t ++ raw " = 1") := by
  unfold asPredicate at h
  split at h
  · exact .inl h
  · rename_i lacks
    have lacks : d.has .booleanLiterals = false := by simpa using lacks
    split at h
    · split at h
      · cases h
        exact .inr ⟨lacks, .inl ⟨_, rfl, by assumption, rfl⟩⟩
      · exact .inl h
    · split at h
      · simp only [bind_eq_ok, pure_eq_ok] at h
        obtain ⟨t, rendered, rfl⟩ := h
        exact .inr ⟨lacks, .inr ⟨_, t, rfl, by assumption, rendered, rfl⟩⟩
      · exact .inl h
    · exact .inl h

/-- The CASE that stands for a condition where a value is expected. -/
def truthCase (t : Sql) : Sql :=
  raw "CASE WHEN " ++ t ++ raw " THEN 1 WHEN NOT (" ++ t ++ raw ") THEN 0 END"

/-- The text of a node where a value is expected. -/
def operandText (d : Dialect) (n : Node) (t : Sql) : Sql :=
  if n.isPredicate then if d.has .booleanLiterals then parens t else truthCase t
  else if n.kind = .select then parens t
  else t

theorem asOperand_eq_ok {n : Node} {rendered : Result Sql} :
    asOperand d n rendered = .ok s ↔ ∃ t, rendered = .ok t ∧ operandText d n t = s := by
  simp only [asOperand, bind_eq_ok]
  refine exists_congr fun t => and_congr_right fun _ => ?_
  unfold operandText
  split <;> split <;> simp [truthCase]

/-! ## Predicates -/

theorem connective_eq_ok {word : String} {operands : List Node} {conditions : List (Result Sql)} :
    connective word operands conditions = .ok s ↔
      ∃ parts, conditions = parts.map .ok ∧ connect word (operands.zip parts) = s := by
  simp only [connective, bind_eq_ok, inOrder_eq_ok, pure_eq_ok]

theorem not_eq_ok {condition : Result Sql} :
    not condition = .ok s ↔ ∃ c, condition = .ok c ∧ raw "NOT (" ++ c ++ raw ")" = s := by
  simp only [not, bind_eq_ok, pure_eq_ok]

theorem comparison_eq_ok {op : ComparisonOp} {left right : Result Sql} :
    comparison op left right = .ok s ↔ ∃ l r, left = .ok l ∧ right = .ok r ∧
      l ++ raw (" " ++ op.symbol ++ " ") ++ r = s := by
  simp only [comparison, bind_eq_ok, pure_eq_ok, exists_and_left]

theorem like_eq_ok {expr pattern : Result Sql} {escape : Option (Result Sql)} :
    like expr pattern escape = .ok s ↔ ∃ e p x, expr = .ok e ∧ pattern = .ok p ∧
      escape = x.map .ok ∧ e ++ raw " LIKE " ++ p ++ clause " ESCAPE " x = s := by
  simp only [like, bind_eq_ok, pure_eq_ok, optional_eq_ok, exists_and_left]

theorem between_eq_ok {expr low high : Result Sql} :
    between expr low high = .ok s ↔ ∃ e l h, expr = .ok e ∧ low = .ok l ∧ high = .ok h ∧
      e ++ raw " BETWEEN " ++ l ++ raw " AND " ++ h = s := by
  simp only [between, bind_eq_ok, pure_eq_ok, exists_and_left]

theorem inList_eq_ok {expr : Result Sql} {values : List (Result Sql)} :
    inList expr values = .ok s ↔ ∃ e vs, expr = .ok e ∧ values = vs.map .ok ∧
      e ++ raw " IN (" ++ joinWith ", " vs ++ raw ")" = s := by
  simp only [inList, bind_eq_ok, pure_eq_ok, inOrder_eq_ok, exists_and_left]

theorem inSubquery_eq_ok {expr statement : Result Sql} :
    inSubquery d expr statement = .ok s ↔ d.has .inSubquery ∧ ∃ e t, expr = .ok e ∧
      statement = .ok t ∧ e ++ raw " IN (" ++ t ++ raw ")" = s := by
  simp only [inSubquery, bind_eq_ok, pure_eq_ok, require_eq_ok, exists_and_left, exists_const]

theorem isNull_eq_ok {expr : Result Sql} :
    isNull expr = .ok s ↔ ∃ e, expr = .ok e ∧ e ++ raw " IS NULL" = s := by
  simp only [isNull, bind_eq_ok, pure_eq_ok]

theorem isNotNull_eq_ok {expr : Result Sql} :
    isNotNull expr = .ok s ↔ ∃ e, expr = .ok e ∧ e ++ raw " IS NOT NULL" = s := by
  simp only [isNotNull, bind_eq_ok, pure_eq_ok]

/-! ## Calls -/

/-- What a function makes of its arguments. -/
theorem apply_eq_ok {kind : Kind} {spec : FunctionSpec} {args : List (Result Sql)}
    (h : apply d kind spec args = .ok s) :
    (spec.style = .keyword ∧ raw spec.name = s) ∨
    (∃ arg rest, spec.style = .unary ∧ args = .ok arg :: rest ∧
      raw ("(" ++ spec.name ++ " ") ++ arg ++ raw ")" = s) ∨
    (∃ parts, spec.style = .operator ∧ args = parts.map .ok ∧
      parens (joinWith (" " ++ spec.name ++ " ") parts) = s) ∨
    ∃ parts, (spec.style = .call ∨ ∃ code, spec.style = .other code) ∧ args = parts.map .ok ∧
      raw (spec.name ++ "(") ++ joinWith ", " parts ++ raw ")" = s := by
  unfold apply at h
  split at h
  · contradiction
  split at h
  · rename_i style
    exact .inl ⟨style, by simpa using h⟩
  · rename_i style
    split at h
    · contradiction
    · rename_i arg rest _
      simp only [bind_eq_ok, pure_eq_ok] at h
      obtain ⟨a, rfl, same⟩ := h
      exact .inr (.inl ⟨a, rest, style, rfl, same⟩)
  · rename_i style
    simp only [bind_eq_ok, pure_eq_ok, inOrder_eq_ok] at h
    obtain ⟨parts, rendered, same⟩ := h
    exact .inr (.inr (.inl ⟨parts, style, rendered, same⟩))
  · rename_i style
    simp only [bind_eq_ok, pure_eq_ok, inOrder_eq_ok] at h
    obtain ⟨parts, rendered, same⟩ := h
    exact .inr (.inr (.inr ⟨parts, .inl style, rendered, same⟩))
  · rename_i code style
    simp only [bind_eq_ok, pure_eq_ok, inOrder_eq_ok] at h
    obtain ⟨parts, rendered, same⟩ := h
    exact .inr (.inr (.inr ⟨parts, .inr ⟨code, style⟩, rendered, same⟩))

theorem function_eq_ok {name : String} {args : List (Result Sql)} :
    function d name args = .ok s ↔
      ∃ spec, d.profile.functions.get? name = some spec ∧ apply d .function spec args = .ok s := by
  unfold function
  split <;> simp_all [refuse]

theorem regexpLike_eq_ok {expr pattern : Result Sql} :
    regexpLike d expr pattern = .ok s ↔ d.has .regexpLike ∧
      apply d .regexpLike d.profile.regexp [expr, pattern] = .ok s := by
  simp only [regexpLike, bind_eq_ok, require_eq_ok, exists_const]

/-- The condition of a branch, compared with the basis where the CASE cannot have one. -/
def branchCondition (d : Dialect) (basis : Option Sql) (c : Sql) : Sql :=
  match basis with
  | some b => if d.has .simpleCase then c else b ++ raw " = " ++ c
  | none => c

theorem branch_eq_ok {basis : Option Sql} {condition result : Result Sql} :
    branch d basis condition result = .ok s ↔ ∃ c r, condition = .ok c ∧ result = .ok r ∧
      raw " WHEN " ++ branchCondition d basis c ++ raw " THEN " ++ r = s := by
  simp only [branch, bind_eq_ok, pure_eq_ok, exists_and_left]
  rfl

theorem case_eq_ok {basis : Option (Result Sql)} {branches : List (Result Sql × Result Sql)}
    {otherwise : Option (Result Sql)} :
    case d basis branches otherwise = .ok s ↔ ∃ b, ∃ parts : List Sql, ∃ e, basis = b.map .ok ∧
      branches.map (fun (condition, result) => branch d b condition result) = parts.map .ok ∧
      otherwise = e.map .ok ∧
      raw "CASE" ++ (if d.has .simpleCase then clause " " b else []) ++ parts.flatten ++
        clause " ELSE " e ++ raw " END" = s := by
  simp only [case, bind_eq_ok, pure_eq_ok, optional_eq_ok, inOrder_eq_ok, exists_and_left]

theorem extract_eq_ok {part : DatePart} {arg : Result Sql} (h : extract d part arg = .ok s) :
    ∃ a, arg = .ok a ∧
      (raw ("EXTRACT(" ++ part.name ++ " FROM ") ++ a ++ raw ")" = s ∨
        raw ("DATEPART(" ++ part.name ++ ", ") ++ a ++ raw ")" = s ∨
        ∃ format type, strftimeFormat? part = some (format, type) ∧
          raw "CAST(STRFTIME(" ++ [.text format] ++ raw ", " ++ a ++
            raw (") AS " ++ type ++ ")") = s) := by
  unfold extract at h
  split at h
  · simp only [bind_eq_ok, require_eq_ok, pure_eq_ok] at h
    obtain ⟨-, -, a, rendered, same⟩ := h
    exact ⟨a, rendered, .inl same⟩
  · simp only [bind_eq_ok, pure_eq_ok] at h
    obtain ⟨a, rendered, same⟩ := h
    exact ⟨a, rendered, .inr (.inl same)⟩
  · split at h
    · contradiction
    · rename_i format type known
      simp only [bind_eq_ok, pure_eq_ok] at h
      obtain ⟨a, rendered, same⟩ := h
      exact ⟨a, rendered, .inr (.inr ⟨format, type, known, same⟩)⟩

theorem cast_eq_ok {type : DataType} {arg : Result Sql} :
    cast d type arg = .ok s ↔ ∃ name a, d.profile.typeName? type = some name ∧ arg = .ok a ∧
      (if d.profile.castStyle = .doubleColon then parens a ++ raw ("::" ++ name)
        else raw "CAST(" ++ a ++ raw (" AS " ++ name ++ ")")) = s := by
  unfold cast
  split
  · simp_all [refuse]
  · rename_i name found
    simp only [bind_eq_ok, found, Option.some.injEq, exists_and_left, exists_eq_left']
    refine exists_congr fun a => and_congr_right fun _ => ?_
    split <;> simp

theorem aggregateArguments_eq_ok {distinct : Bool} {args : List (Result Sql)} :
    aggregateArguments distinct args = .ok s ↔ ∃ parts, args = parts.map .ok ∧
      (if parts.isEmpty then raw "*"
        else (if distinct then raw "DISTINCT " else []) ++ joinWith ", " parts) = s := by
  cases args with
  | nil => simp [aggregateArguments]
  | cons arg args =>
    simp only [aggregateArguments, List.isEmpty_cons, Bool.false_eq_true, if_false, bind_eq_ok,
      inOrder_eq_ok, pure_eq_ok]
    refine exists_congr fun parts => and_congr_right fun same => ?_
    cases parts with
    | nil => simp at same
    | cons part parts => simp

/-- The text of a condition on the rows that an aggregate counts. -/
def filterText : Option Sql → Sql
  | some c => raw " FILTER (WHERE " ++ c ++ raw ")"
  | none => []

theorem filterClause_eq_ok {filter : Option (Result Sql)} :
    filterClause d filter = .ok s ↔ (filter.isSome → d.has .aggregateFilter) ∧
      ∃ f, filter = Option.map .ok f ∧ filterText f = s := by
  cases filter with
  | none =>
    have missing (f : Option Sql) : none = f.map (Except.ok (ε := Unsupported)) ↔ f = none := by
      cases f <;> simp
    simp [filterClause, missing, filterText]
  | some filter =>
    simp only [filterClause, bind_eq_ok, require_eq_ok, pure_eq_ok, exists_const, Option.isSome_some,
      true_implies]
    refine and_congr_right fun _ => ⟨?_, ?_⟩
    · rintro ⟨c, rfl, same⟩
      exact ⟨some c, rfl, same⟩
    · rintro ⟨_ | c, rendered, same⟩
      · contradiction
      · exact ⟨c, Option.some.inj rendered, same⟩

theorem aggregate_eq_ok {name : String} {distinct : Bool} {args : List (Result Sql)}
    {filter : Option (Result Sql)} :
    aggregate d name distinct args filter = .ok s ↔
      ∃ spelling a f, d.profile.aggregates.get? name = some spelling ∧
        aggregateArguments distinct args = .ok a ∧ filterClause d filter = .ok f ∧
        raw (spelling ++ "(") ++ a ++ raw ")" ++ f = s := by
  unfold aggregate
  split
  · simp_all [refuse]
  · rename_i spelling found
    simp only [bind_eq_ok, pure_eq_ok, found, Option.some.injEq, exists_and_left, exists_eq_left']

theorem checkIf_eq_ok {applies : Bool} {check : Result Unit} {u : Unit} :
    checkIf applies check = .ok u ↔ (applies → check = .ok ()) := by
  cases applies <;> simp [checkIf]

theorem groupConcat_eq_ok {arg : Result Sql} {distinct : Bool} {order : Option (Result Sql)}
    {separator : Option String} :
    groupConcat d arg distinct order separator = .ok s ↔
      ((distinct → joinDistinct d = .ok ()) ∧ d.has .groupConcat ∧
        (order.isSome → d.has .groupConcatOrderBy) ∧
        ¬ (d.concatStyle = .groupConcatArgument ∧ distinct ∧ separator.isSome ∧
          separator ≠ some ",")) ∧
      ∃ a o, arg = .ok a ∧ order = Option.map .ok o ∧
        concatCall d.concatStyle distinct a o separator = s := by
  simp only [groupConcat, bind_eq_ok, checkIf_eq_ok, require_eq_ok, optional_eq_ok, pure_eq_ok,
    exists_const, Bool.and_eq_true, decide_eq_true_eq, bne_iff_ne, refuse, reduceCtorEq,
    imp_false]
  constructor
  · rintro ⟨distinct, has, a, rendered, ordered, o, orders, separated, same⟩
    exact ⟨⟨distinct, has, ordered, by simpa [and_assoc] using separated⟩, a, o, rendered, orders,
      same⟩
  · rintro ⟨⟨distinct, has, ordered, separated⟩, a, o, rendered, orders, same⟩
    exact ⟨distinct, has, a, rendered, ordered, o, orders, by simpa [and_assoc] using separated,
      same⟩

/-- The arguments of a window function. -/
def windowList (name : String) (list : List Sql) : Sql :=
  if list.isEmpty && name == "COUNT" then raw "*" else joinWith ", " list

/-- The parts of a window. -/
def windowParts (partition : List Sql) (order : Option Sql) (bounds : Option Frame) : List Sql :=
  (if partition.isEmpty then [] else [raw "PARTITION BY " ++ joinWith ", " partition]) ++
    order.toList ++ (bounds.map fun f => raw (frame f)).toList

theorem window_eq_ok {name : String} {args partition : List (Result Sql)}
    {order : Option (Result Sql)} {bounds : Option Frame} :
    window d name args partition order bounds = .ok s ↔ d.has .windowFunctions ∧
      ∃ spelling l p o, d.profile.windowFunctions.get? name = some spelling ∧
        args = List.map .ok l ∧ partition = List.map .ok p ∧ order = Option.map .ok o ∧
        raw (spelling ++ "(") ++ windowList name l ++ raw ") OVER (" ++
          joinWith " " (windowParts p o bounds) ++ raw ")" = s := by
  simp only [window, bind_eq_ok, require_eq_ok, exists_const]
  refine and_congr_right fun _ => ?_
  split
  · simp_all [refuse]
  · rename_i spelling found
    simp only [bind_eq_ok, inOrder_eq_ok, optional_eq_ok, pure_eq_ok, found, Option.some.injEq,
      exists_and_left, exists_eq_left']
    refine exists_congr fun l => and_congr_right fun rendered => ?_
    subst rendered
    simp only [windowList, windowParts, List.isEmpty_map]

/-! ## Clauses -/

theorem limit_eq_ok {l : Limit} (h : limit d l = .ok s) :
    s = raw (limitText d.profile.limitStyle l) := by
  simp only [limit, bind_eq_ok, pure_eq_ok] at h
  obtain ⟨-, -, -, -, -, -, same⟩ := h
  exact same.symm

theorem selectList_eq_ok {star : Bool} {items : List (Result Sql)} :
    selectList d star items = .ok s ↔
      if star then raw "*" = s
      else ∃ parts, items = List.map .ok parts ∧
        (if parts.isEmpty then raw (anyValue d) else joinWith ", " parts) = s := by
  unfold selectList
  split
  · simp
  · cases items with
    | nil => simp
    | cons item items =>
      simp only [List.isEmpty_cons, Bool.false_eq_true, if_false, bind_eq_ok, inOrder_eq_ok,
        pure_eq_ok]
      refine exists_congr fun parts => and_congr_right fun same => ?_
      cases parts with
      | nil => simp at same
      | cons part parts => simp

theorem selectItem_eq_ok {aliasName : String} {expr : Result Sql} :
    selectItem aliasName expr = .ok s ↔ ∃ e, expr = .ok e ∧
      (if aliasName = "" then e else e ++ raw " AS " ++ [Fragment.name aliasName]) = s := by
  simp only [selectItem, bind_eq_ok, pure_eq_ok]

theorem joinKeyword_eq_ok {type : JoinType} {keyword : String}
    (h : joinKeyword d type = .ok keyword) :
    keyword ∈ ["INNER JOIN", "LEFT OUTER JOIN", "RIGHT OUTER JOIN", "FULL OUTER JOIN"] := by
  cases type <;>
    simp only [joinKeyword, bind_eq_ok, pure_eq_ok, require_eq_ok, refuse, reduceCtorEq] at h
  · cases h; simp
  · cases h; simp
  · obtain ⟨-, -, rfl⟩ := h; simp
  · obtain ⟨-, -, rfl⟩ := h; simp

theorem join_eq_ok {type : JoinType} {left right condition : Result Sql} {rightKind : Kind} :
    join d type left rightKind right condition = .ok s ↔
      ∃ keyword l r c, joinKeyword d type = .ok keyword ∧ left = .ok l ∧ right = .ok r ∧
        condition = .ok c ∧
        l ++ raw (" " ++ keyword ++ " ") ++ (if rightKind = .join then parens r else r) ++
          raw " ON " ++ c = s := by
  simp only [join, bind_eq_ok, pure_eq_ok, exists_and_left]

theorem subSelect_eq_ok {statement : Result Sql} {aliasName : String} :
    subSelect d statement aliasName = .ok s ↔ d.has .derivedTables ∧
      ∃ t, statement = .ok t ∧ parens t ++ tableAlias d aliasName = s := by
  simp only [subSelect, bind_eq_ok, require_eq_ok, pure_eq_ok, exists_const]

theorem sortKey_eq_ok {ascending nullsLast : Bool} {expr : Result Sql} :
    sortKey d ascending nullsLast expr = .ok s ↔
      ∃ e, expr = .ok e ∧ e ++ raw (direction d ascending nullsLast) = s := by
  simp only [sortKey, bind_eq_ok, pure_eq_ok]

theorem orderBy_eq_ok {keys : List (Result Sql)} :
    orderBy keys = .ok s ↔ ∃ parts, keys = List.map .ok parts ∧
      raw "ORDER BY " ++ joinWith ", " parts = s := by
  simp only [orderBy, bind_eq_ok, inOrder_eq_ok, pure_eq_ok]

theorem groupBy_eq_ok {exprs : List (Result Sql)} :
    groupBy exprs = .ok s ↔ ∃ parts, exprs = List.map .ok parts ∧
      raw "GROUP BY " ++ joinWith ", " parts = s := by
  simp only [groupBy, bind_eq_ok, inOrder_eq_ok, pure_eq_ok]

/-- The row limit in front of a projection. -/
def limitOnTop (d : Dialect) (limit : Option Sql) : Sql :=
  if d.profile.limitStyle = .top then (limit.map (· ++ raw " ")).getD [] else []

/-- The row limit at the end of a statement. -/
def limitAtEnd (d : Dialect) (limit : Option Sql) : Sql :=
  if d.profile.limitStyle = .top then [] else clause " " limit

theorem select_eq_ok {limit : Option (Result Sql)} {list : Result Sql}
    {source filter grouping having order : Option (Result Sql)} :
    select d limit list source filter grouping having order = .ok s ↔
      ∃ n l f w g h o, limit = Option.map .ok n ∧ list = .ok l ∧ source = Option.map .ok f ∧
        filter = Option.map .ok w ∧ grouping = Option.map .ok g ∧ having = Option.map .ok h ∧
        order = Option.map .ok o ∧
        raw "SELECT " ++ limitOnTop d n ++ l ++ fromClause d f ++ clause " WHERE " w ++
          clause " " g ++ clause " HAVING " h ++ clause " " o ++ limitAtEnd d n = s := by
  simp only [select, bind_eq_ok, optional_eq_ok, pure_eq_ok, exists_and_left, limitOnTop,
    limitAtEnd]

end Pushdown.Render

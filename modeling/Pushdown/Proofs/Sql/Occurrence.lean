import Pushdown.Proofs.Sql.Names
import Pushdown.Proofs.Syntax.Positions

/-!
# Where the parts of a statement stand

A construct writes each of its parts as it is, so the text of every part occurs in that of the
construct. If a statement is rendered, the values and conditions anywhere in its tree are therefore
rendered as well, and what each becomes in its position occurs in the text of the statement.
-/

namespace Pushdown

namespace Sql

/-- Each of the texts occurs in this one. -/
def Holds (s : Sql) (ts : List Sql) : Prop := ∀ t ∈ ts, t <:+: s

namespace Holds

variable {s t : Sql} {ts us : List Sql}

theorem nil (s : Sql) : s.Holds [] := by simp [Holds]

theorem self (s : Sql) : s.Holds [s] := by simp [Holds]

theorem append (h : s.Holds ts) (k : t.Holds us) : (s ++ t).Holds (ts ++ us) := by
  intro u member
  rcases List.mem_append.mp member with first | second
  · exact List.infix_append_of_infix_left (h u first)
  · exact List.infix_append_of_infix_right (k u second)

theorem mono (h : s.Holds ts) (listed : ∀ u ∈ us, u ∈ ts) : s.Holds us :=
  fun u member => h u (listed u member)

theorem joinWith (separator : String) (parts : List Sql) :
    (Sql.joinWith separator parts).Holds parts := by
  unfold Sql.joinWith
  induction parts with
  | nil => exact nil _
  | cons part parts ih =>
    cases parts with
    | nil => simpa using self part
    | cons next parts => exact (self part).append ((nil _).append ih)

theorem parens (s : Sql) : (Sql.parens s).Holds [s] := ((nil _).append (self s)).append (nil _)

theorem clause (keyword : String) (t : Option Sql) : (Render.clause keyword t).Holds t.toList := by
  cases t with
  | none => exact nil _
  | some t => exact (nil _).append (self t)

end Holds

/-- A part of a text is written as a part of what the text is written as. -/
theorem write_infix (p : Profile) (quoteNames : Bool) {t s : Sql} (h : t <:+: s) :
    (t.write p quoteNames).toList <:+: (s.write p quoteNames).toList := by
  obtain ⟨before, after, rfl⟩ := h
  exact ⟨(Sql.write p quoteNames before).toList, (Sql.write p quoteNames after).toList, by simp⟩

end Sql

namespace Render

open Sql (raw joinWith parens Holds)

/-- If this is rendered, so are the parts, and it holds their texts. -/
def Includes (parts : List (Result Sql)) (r : Result Sql) : Prop :=
  ∀ s, r = .ok s → ∃ ts : List Sql, parts = ts.map .ok ∧ s.Holds ts

theorem Includes.part {parts : List (Result Sql)} {r : Result Sql} (h : Includes parts r) {s : Sql}
    (rendered : r = .ok s) {part : Result Sql} (member : part ∈ parts) :
    ∃ t, part = .ok t ∧ t <:+: s := by
  obtain ⟨ts, rfl, holds⟩ := h s rendered
  obtain ⟨t, listed, rfl⟩ := List.mem_map.mp member
  exact ⟨t, rfl, holds t listed⟩

section

variable {d : Dialect} {ctx : Context}

/-! ## Positions -/

theorem asOperand_includes (n : Node) (r : Result Sql) : Includes [r] (asOperand d n r) := by
  intro s whole
  obtain ⟨t, rfl, rfl⟩ := asOperand_eq_ok.mp whole
  refine ⟨[t], rfl, ?_⟩
  unfold operandText
  split
  · split
    · exact .parens t
    · exact ((((Holds.nil _).append (.self t)).append (.nil _)).append (.nil t)).append (.nil _)
  · split
    · exact .parens t
    · exact .self t

/-- What stands where a condition is expected includes the node, unless the node is a constant or a
column. -/
theorem asPredicate_includes {n : Node} (inner : n.children ≠ []) (r : Result Sql) :
    Includes [r] (asPredicate d n r) := by
  intro s whole
  rw [asPredicate_other (by cases n <;> simp_all [Node.kind, Node.children])
    (by cases n <;> simp_all [Node.kind, Node.children])] at whole
  exact ⟨[s], by simp [whole], .self s⟩

/-! ## Predicates -/

theorem connective_includes {word : String} {operands : List Node}
    {conditions : List (Result Sql)} (same : operands.length = conditions.length) :
    Includes conditions (connective word operands conditions) := by
  intro s whole
  obtain ⟨parts, rfl, rfl⟩ := connective_eq_ok.mp whole
  refine ⟨parts, rfl, fun t member => ?_⟩
  obtain ⟨i, inside, rfl⟩ := List.mem_iff_getElem.mp member
  rw [List.length_map] at same
  have listed : (operands.get ⟨i, by omega⟩, parts[i]) ∈ operands.zip parts := by
    refine List.mem_iff_getElem.mpr ⟨i, by simp; omega, ?_⟩
    simp
  have piece := Holds.joinWith (" " ++ word ++ " ") _ _ (List.mem_map_of_mem
    (f := fun c : Node × Sql =>
      if c.1.isConnective && (operands.zip parts).length > 1 then parens c.2 else c.2) listed)
  refine List.IsInfix.trans ?_ piece
  simp only
  split
  · exact Holds.parens _ _ (by simp)
  · exact List.infix_rfl

theorem not_includes {condition : Result Sql} : Includes [condition] (not condition) := by
  intro s whole
  obtain ⟨c, rfl, rfl⟩ := not_eq_ok.mp whole
  exact ⟨[c], rfl, ((Holds.nil _).append (.self c)).append (.nil _)⟩

theorem comparison_includes {op : ComparisonOp} {left right : Result Sql} :
    Includes [left, right] (comparison op left right) := by
  intro s whole
  obtain ⟨l, r, rfl, rfl, rfl⟩ := comparison_eq_ok.mp whole
  exact ⟨[l, r], rfl, ((Holds.self l).append (.nil _)).append (.self r)⟩

theorem like_includes {expr pattern : Result Sql} {escape : Option (Result Sql)} :
    Includes (expr :: pattern :: escape.toList) (like expr pattern escape) := by
  intro s whole
  obtain ⟨e, p, x, rfl, rfl, rfl, rfl⟩ := like_eq_ok.mp whole
  exact ⟨e :: p :: x.toList, by simp [Option.toList_map],
    (((Holds.self e).append (.nil _)).append (.self p)).append (.clause _ x)⟩

theorem between_includes {expr low high : Result Sql} :
    Includes [expr, low, high] (between expr low high) := by
  intro s whole
  obtain ⟨e, l, h, rfl, rfl, rfl, rfl⟩ := between_eq_ok.mp whole
  exact ⟨[e, l, h], rfl,
    ((((Holds.self e).append (.nil _)).append (.self l)).append (.nil _)).append (.self h)⟩

theorem inList_includes {expr : Result Sql} {values : List (Result Sql)} :
    Includes (expr :: values) (inList expr values) := by
  intro s whole
  obtain ⟨e, vs, rfl, rfl, rfl⟩ := inList_eq_ok.mp whole
  refine ⟨e :: vs, rfl, ?_⟩
  simpa using (((Holds.self e).append (.nil _)).append (.joinWith ", " vs)).append (.nil (raw ")"))

theorem inSubquery_includes {expr statement : Result Sql} :
    Includes [expr, statement] (inSubquery d expr statement) := by
  intro s whole
  obtain ⟨-, e, t, rfl, rfl, rfl⟩ := inSubquery_eq_ok.mp whole
  exact ⟨[e, t], rfl, (((Holds.self e).append (.nil _)).append (.self t)).append (.nil _)⟩

theorem isNull_includes {expr : Result Sql} : Includes [expr] (isNull expr) := by
  intro s whole
  obtain ⟨e, rfl, rfl⟩ := isNull_eq_ok.mp whole
  exact ⟨[e], rfl, (Holds.self e).append (.nil _)⟩

theorem isNotNull_includes {expr : Result Sql} : Includes [expr] (isNotNull expr) := by
  intro s whole
  obtain ⟨e, rfl, rfl⟩ := isNotNull_eq_ok.mp whole
  exact ⟨[e], rfl, (Holds.self e).append (.nil _)⟩

/-! ## Calls -/

theorem apply_includes (kind : Kind) {spec : FunctionSpec} (writes : spec.WritesArguments)
    (args : List (Result Sql)) : Includes args (apply d kind spec args) := by
  intro s whole
  rcases apply_eq_ok whole with ⟨style, rfl⟩ | ⟨arg, rest, style, rfl, rfl⟩ |
    ⟨parts, -, rfl, rfl⟩ | ⟨parts, -, rfl, rfl⟩
  · have arity := writes.1 style
    have count := apply_arity whole (by omega)
    obtain rfl : args = [] := List.eq_nil_of_length_eq_zero (by omega)
    exact ⟨[], rfl, .nil _⟩
  · have arity := writes.2 style
    have count := apply_arity whole (by omega)
    obtain rfl : rest = [] := List.eq_nil_of_length_eq_zero (by simp at count; omega)
    exact ⟨[arg], rfl, ((Holds.nil _).append (.self arg)).append (.nil _)⟩
  · refine ⟨parts, rfl, fun t member => ?_⟩
    exact (Holds.joinWith (" " ++ spec.name ++ " ") parts t member).trans
      (Holds.parens _ _ (List.mem_singleton_self _))
  · refine ⟨parts, rfl, ?_⟩
    simpa using ((Holds.nil (raw (spec.name ++ "("))).append (.joinWith ", " parts)).append
      (.nil (raw ")"))

theorem function_includes (lossless : d.Lossless) {name : String} {args : List (Result Sql)} :
    Includes args (function d name args) := by
  intro s whole
  obtain ⟨spec, found, rendered⟩ := function_eq_ok.mp whole
  exact apply_includes .function (lossless.functions.get? found) args s rendered

theorem regexpLike_includes (lossless : d.Lossless) {expr pattern : Result Sql} :
    Includes [expr, pattern] (regexpLike d expr pattern) := fun s whole =>
  apply_includes .regexpLike lossless.regexp _ s (regexpLike_eq_ok.mp whole).2

theorem extract_includes {part : DatePart} {arg : Result Sql} :
    Includes [arg] (extract d part arg) := by
  intro s whole
  obtain ⟨a, rfl, rfl | rfl | ⟨format, type, -, rfl⟩⟩ := extract_eq_ok whole
  · exact ⟨[a], rfl, ((Holds.nil _).append (.self a)).append (.nil _)⟩
  · exact ⟨[a], rfl, ((Holds.nil _).append (.self a)).append (.nil _)⟩
  · exact ⟨[a], rfl, ((Holds.nil _).append (.self a)).append (.nil _)⟩

theorem cast_includes {type : DataType} {arg : Result Sql} :
    Includes [arg] (cast d type arg) := by
  intro s whole
  obtain ⟨name, a, -, rfl, rfl⟩ := cast_eq_ok.mp whole
  refine ⟨[a], rfl, ?_⟩
  split
  · exact (Holds.parens a).append (.nil _)
  · exact ((Holds.nil _).append (.self a)).append (.nil _)

/-- A branch of a CASE holds its condition and its result. -/
theorem branch_includes {basis : Option Sql} {condition result : Result Sql} :
    Includes [condition, result] (branch d basis condition result) := by
  intro s whole
  obtain ⟨c, r, rfl, rfl, rfl⟩ := branch_eq_ok.mp whole
  have compared : (branchCondition d basis c).Holds [c] := by
    unfold branchCondition
    split
    · split
      · exact .self c
      · exact (Holds.nil _).append (.self c)
    · exact .self c
  exact ⟨[c, r], rfl, (((Holds.nil _).append compared).append (.nil _)).append (.self r)⟩

theorem branches_includes {basis : Option Sql} {branches : List (Result Sql × Result Sql)}
    {parts : List Sql}
    (rendered : branches.map (fun (condition, result) => branch d basis condition result) =
      parts.map .ok) :
    ∃ ts : List Sql, branches.flatMap (fun b => [b.1, b.2]) = ts.map .ok ∧
      Holds parts.flatten ts := by
  induction branches generalizing parts with
  | nil => exact ⟨[], rfl, .nil _⟩
  | cons b branches ih =>
    cases parts with
    | nil => simp at rendered
    | cons part parts =>
      simp only [List.map_cons, List.cons.injEq] at rendered
      obtain ⟨us, first, held⟩ := branch_includes part rendered.1
      obtain ⟨ts, rest, holds⟩ := ih rendered.2
      refine ⟨us ++ ts, ?_, held.append holds⟩
      rw [List.flatMap_cons, rest, List.map_append, first]

theorem case_includes (simple : d.has .simpleCase) {basis : Option (Result Sql)}
    {branches : List (Result Sql × Result Sql)} {otherwise : Option (Result Sql)} :
    Includes (basis.toList ++ branches.flatMap (fun b => [b.1, b.2]) ++ otherwise.toList)
      (case d basis branches otherwise) := by
  intro s whole
  obtain ⟨b, parts, e, rfl, rendered, rfl, rfl⟩ := case_eq_ok.mp whole
  obtain ⟨ts, listed, holds⟩ := branches_includes rendered
  refine ⟨b.toList ++ ts ++ e.toList, by simp [listed, Option.toList_map], ?_⟩
  rw [if_pos simple]
  have held := ((((Holds.nil (raw "CASE")).append (.clause " " b)).append holds).append
    (.clause " ELSE " e)).append (.nil (raw " END"))
  simpa using held

theorem aggregateArguments_includes {distinct : Bool} {args : List (Result Sql)} :
    Includes args (aggregateArguments distinct args) := by
  intro s whole
  obtain ⟨parts, rfl, rfl⟩ := aggregateArguments_eq_ok.mp whole
  refine ⟨parts, rfl, ?_⟩
  split
  · rename_i empty
    rw [List.isEmpty_iff.mp empty]
    exact .nil _
  · exact (Holds.nil _).append (.joinWith ", " parts)

theorem filterClause_includes {filter : Option (Result Sql)} :
    Includes filter.toList (filterClause d filter) := by
  intro s whole
  obtain ⟨-, c, rfl, rfl⟩ := filterClause_eq_ok.mp whole
  refine ⟨c.toList, Option.toList_map .., ?_⟩
  cases c with
  | none => exact .nil _
  | some c => exact ((Holds.nil _).append (.self c)).append (.nil _)

theorem aggregate_includes {name : String} {distinct : Bool} {args : List (Result Sql)}
    {filter : Option (Result Sql)} :
    Includes (args ++ filter.toList) (aggregate d name distinct args filter) := by
  intro s whole
  obtain ⟨spelling, a, f, -, argsRendered, filterRendered, rfl⟩ := aggregate_eq_ok.mp whole
  obtain ⟨parts, rfl, held⟩ := aggregateArguments_includes a argsRendered
  obtain ⟨conditions, listed, holds⟩ := filterClause_includes f filterRendered
  refine ⟨parts ++ conditions, by rw [listed, List.map_append], ?_⟩
  simpa using (((Holds.nil (raw (spelling ++ "("))).append held).append (.nil (raw ")"))).append
    holds

theorem concatCall_holds (style : ConcatStyle) (distinct : Bool) (arg : Sql) (order : Option Sql)
    (separator : Option String) :
    (concatCall style distinct arg order separator).Holds (arg :: order.toList) := by
  have value : ((if distinct then raw "DISTINCT " else []) ++ arg).Holds [arg] :=
    (Holds.nil _).append (.self arg)
  unfold concatCall
  cases style with
  | groupConcat =>
    exact ((((Holds.nil _).append value).append (.clause " " order)).append (.nil _)).append
      (.nil _) |>.mono (by simp)
  | groupConcatArgument | stringAgg =>
    exact ((((Holds.nil _).append value).append (.nil _)).append (.clause " " order)).append
      (.nil _) |>.mono (by simp)
  | stringAggSeparator =>
    exact (((((Holds.nil _).append value).append (.nil _)).append (.nil _)).append
      (.clause " " order)).append (.nil _) |>.mono (by simp)
  | stringAggWithin =>
    have ordered : ((order.map fun s => raw " WITHIN GROUP (" ++ s ++ raw ")").getD []).Holds
        order.toList := by
      cases order with
      | none => exact .nil _
      | some o => exact ((Holds.nil _).append (.self o)).append (.nil _)
    exact (((((Holds.nil _).append value).append (.nil _)).append (.nil _)).append (.nil _)).append
      ordered |>.mono (by simp)
  | listagg since =>
    have ordered : (order.getD (raw "ORDER BY NULL")).Holds order.toList := by
      cases order with
      | none => exact .nil _
      | some o => exact .self o
    exact ((((((Holds.nil _).append value).append (.nil _)).append (.nil _)).append
      (.nil _)).append ordered).append (.nil _) |>.mono (by simp)

theorem groupConcat_includes {arg : Result Sql} {distinct : Bool} {order : Option (Result Sql)}
    {separator : Option String} :
    Includes (arg :: order.toList) (groupConcat d arg distinct order separator) := by
  intro s whole
  obtain ⟨-, a, o, rfl, rfl, rfl⟩ := groupConcat_eq_ok.mp whole
  exact ⟨a :: o.toList, by simp [Option.toList_map],
    concatCall_holds d.concatStyle distinct a o separator⟩

theorem window_includes {name : String} {args partition : List (Result Sql)}
    {order : Option (Result Sql)} {bounds : Option Frame} :
    Includes (args ++ partition ++ order.toList) (window d name args partition order bounds) := by
  intro s whole
  obtain ⟨-, spelling, l, p, o, -, rfl, rfl, rfl, rfl⟩ := window_eq_ok.mp whole
  refine ⟨l ++ p ++ o.toList, by simp [Option.toList_map], ?_⟩
  have list : (windowList name l).Holds l := by
    unfold windowList
    split
    · rename_i empty
      rw [Bool.and_eq_true, List.isEmpty_iff] at empty
      rw [empty.1]
      exact .nil _
    · exact .joinWith ", " l
  have parts : (joinWith " " (windowParts p o bounds)).Holds (p ++ o.toList) := by
    have pieces := Holds.joinWith " " (windowParts p o bounds)
    intro t member
    rcases List.mem_append.mp member with first | second
    · have whole : raw "PARTITION BY " ++ joinWith ", " p ∈ windowParts p o bounds := by
        have nonempty := List.ne_nil_of_mem first
        simp [windowParts, nonempty]
      exact (List.infix_append_of_infix_right (Holds.joinWith ", " p t first)).trans
        (pieces _ whole)
    · exact pieces t (by simp_all [windowParts])
  have held := ((((Holds.nil (raw (spelling ++ "("))).append list).append
    (.nil (raw ") OVER ("))).append parts).append (.nil (raw ")"))
  exact held.mono (by simp)

/-! ## Clauses -/

theorem selectList_includes {star : Bool} {items : List (Result Sql)}
    (listed : star → items = []) : Includes items (selectList d star items) := by
  intro s whole
  have forms := selectList_eq_ok.mp whole
  split at forms
  · rename_i all
    obtain rfl := listed all
    exact ⟨[], rfl, .nil _⟩
  · obtain ⟨parts, rfl, rfl⟩ := forms
    refine ⟨parts, rfl, ?_⟩
    split
    · rename_i empty
      rw [List.isEmpty_iff.mp empty]
      exact .nil _
    · exact .joinWith ", " parts

theorem selectItem_includes {aliasName : String} {expr : Result Sql} :
    Includes [expr] (selectItem aliasName expr) := by
  intro s whole
  obtain ⟨e, rfl, rfl⟩ := selectItem_eq_ok.mp whole
  refine ⟨[e], rfl, ?_⟩
  split
  · exact .self e
  · exact ((Holds.self e).append (.nil _)).append (.nil _)

theorem join_includes {type : JoinType} {left : Result Sql} {rightKind : Kind}
    {right condition : Result Sql} :
    Includes [left, right, condition] (join d type left rightKind right condition) := by
  intro s whole
  obtain ⟨keyword, l, r, c, -, rfl, rfl, rfl, rfl⟩ := join_eq_ok.mp whole
  have enclosed : (if rightKind = .join then parens r else r).Holds [r] := by
    split
    · exact .parens r
    · exact .self r
  exact ⟨[l, r, c], rfl,
    ((((Holds.self l).append (.nil _)).append enclosed).append (.nil _)).append (.self c)⟩

theorem subSelect_includes {statement : Result Sql} {aliasName : String} :
    Includes [statement] (subSelect d statement aliasName) := by
  intro s whole
  obtain ⟨-, t, rfl, rfl⟩ := subSelect_eq_ok.mp whole
  exact ⟨[t], rfl, (Holds.parens t).append (.nil _)⟩

theorem sortKey_includes {ascending nullsLast : Bool} {expr : Result Sql} :
    Includes [expr] (sortKey d ascending nullsLast expr) := by
  intro s whole
  obtain ⟨e, rfl, rfl⟩ := sortKey_eq_ok.mp whole
  exact ⟨[e], rfl, (Holds.self e).append (.nil _)⟩

theorem orderBy_includes {keys : List (Result Sql)} : Includes keys (orderBy keys) := by
  intro s whole
  obtain ⟨parts, rfl, rfl⟩ := orderBy_eq_ok.mp whole
  exact ⟨parts, rfl, (Holds.nil _).append (.joinWith ", " parts)⟩

theorem groupBy_includes {exprs : List (Result Sql)} : Includes exprs (groupBy exprs) := by
  intro s whole
  obtain ⟨parts, rfl, rfl⟩ := groupBy_eq_ok.mp whole
  exact ⟨parts, rfl, (Holds.nil _).append (.joinWith ", " parts)⟩

theorem limit_holds (limit : Option Sql) :
    (limitOnTop d limit).Holds limit.toList ∨ (limitAtEnd d limit).Holds limit.toList := by
  unfold limitOnTop limitAtEnd
  split
  · refine .inl ?_
    cases limit with
    | none => exact .nil _
    | some l => exact (Holds.self l).append (.nil _)
  · exact .inr (.clause " " limit)

theorem select_includes {limit : Option (Result Sql)} {list : Result Sql}
    {source filter grouping having order : Option (Result Sql)} :
    Includes (list :: (source.toList ++ filter.toList ++ grouping.toList ++ having.toList ++
      order.toList ++ limit.toList)) (select d limit list source filter grouping having order) := by
  intro s whole
  obtain ⟨n, l, f, w, g, h, o, rfl, rfl, rfl, rfl, rfl, rfl, rfl, rfl⟩ := select_eq_ok.mp whole
  refine ⟨l :: (f.toList ++ w.toList ++ g.toList ++ h.toList ++ o.toList ++ n.toList),
    by simp [Option.toList_map], ?_⟩
  have sourced : (fromClause d f).Holds f.toList := by
    unfold fromClause
    cases f with
    | none => exact .nil _
    | some t => exact (Holds.nil _).append (.self t)
  have assembled {top bottom : List Sql} (onTop : (limitOnTop d n).Holds top)
      (atEnd : (limitAtEnd d n).Holds bottom) :=
    ((((((((Holds.nil (raw "SELECT ")).append onTop).append (.self l)).append sourced).append
      (.clause " WHERE " w)).append (.clause " " g)).append (.clause " HAVING " h)).append
      (.clause " " o)).append atEnd
  rcases @limit_holds d n with onTop | atEnd
  · exact (assembled onTop (.nil _)).mono (by simp; tauto)
  · exact (assembled (.nil _) atEnd).mono (by simp)

/-! ## The tree -/

/-- The parts of a node as they are rendered in their positions. -/
def parts (d : Dialect) (ctx : Context) (n : Node) : List (Result Sql) :=
  n.values.map (fun v => asOperand d v (node d ctx v)) ++
    (n.conditions.map (fun c => asPredicate d c (node d ctx c)) ++ n.clauses.map (node d ctx))

theorem mem_parts_of_value {n v : Node} (h : v ∈ n.values) :
    asOperand d v (node d ctx v) ∈ parts d ctx n :=
  List.mem_append_left _ (List.mem_map.mpr ⟨v, h, rfl⟩)

theorem mem_parts_of_condition {n c : Node} (h : c ∈ n.conditions) :
    asPredicate d c (node d ctx c) ∈ parts d ctx n :=
  List.mem_append_right _ (List.mem_append_left _ (List.mem_map.mpr ⟨c, h, rfl⟩))

theorem mem_parts_of_clause {n c : Node} (h : c ∈ n.clauses) : node d ctx c ∈ parts d ctx n :=
  List.mem_append_right _ (List.mem_append_right _ (List.mem_map_of_mem h))

theorem parts_of_children_eq_nil {n : Node} (h : n.children = []) : parts d ctx n = [] := by
  have empty := n.children_perm.length_eq
  simp only [h, List.length_nil, List.length_append] at empty
  refine List.eq_nil_of_length_eq_zero ?_
  simp only [parts, List.length_append, List.length_map]
  omega

/-- What is wrapped in a part of a construct occurs in the construct. -/
theorem Includes.inner {ι : Type} {xs : List ι} {wrap inner : ι → Result Sql} {r : Result Sql}
    (h : Includes (xs.map wrap) r) (each : ∀ x ∈ xs, Includes [inner x] (wrap x)) {s : Sql}
    (rendered : r = .ok s) {part : Result Sql} (member : part ∈ xs.map inner) :
    ∃ t, part = .ok t ∧ t <:+: s := by
  obtain ⟨x, listed, rfl⟩ := List.mem_map.mp member
  obtain ⟨u, wrapped, outer⟩ := h.part rendered (List.mem_map_of_mem listed)
  obtain ⟨t, written, inside⟩ := (each x listed).part wrapped (List.mem_singleton_self _)
  exact ⟨t, written, inside.trans outer⟩

/-- Every part of a node that is rendered is rendered, and its text occurs in that of the node. -/
theorem node_includes (lossless : d.Lossless) (simple : d.has .simpleCase) {n : Node}
    (rules : n.KeepsRules) {s : Sql} (h : node d ctx n = .ok s) {part : Result Sql}
    (member : part ∈ parts d ctx n) : ∃ t, part = .ok t ∧ t <:+: s := by
  have unmarked := lossless.unmarked
  unfold parts at member
  cases n with
  | select statement =>
    rw [node_select unmarked] at h
    refine select_includes.part h ?_
    simp [Node.values, Node.conditions, Node.clauses, Option.toList_map] at member ⊢
    grind
  | selectList l =>
    rw [node_selectList unmarked] at h
    have listed : l.star → l.items.map (fun item =>
        selectItem item.aliasName (asOperand d item.expr (node d ctx item.expr))) = [] := by
      intro star
      rw [rules star, List.map_nil]
    refine (selectList_includes listed).inner (fun _ _ => selectItem_includes) h ?_
    simpa [Node.values, Node.conditions, Node.clauses, Node.children] using member
  | table t => simp [Node.values, Node.conditions, Node.clauses, Node.children] at member
  | join type left right condition =>
    rw [node_join unmarked] at h
    refine join_includes.part h ?_
    simp [Node.values, Node.conditions, Node.clauses] at member ⊢
    tauto
  | subSelect statement aliasName =>
    rw [node_subSelect unmarked] at h
    refine subSelect_includes.part h ?_
    simpa [Node.values, Node.conditions, Node.clauses] using member
  | column c => simp [Node.values, Node.conditions, Node.clauses, Node.children] at member
  | literal l => simp [Node.values, Node.conditions, Node.clauses, Node.children] at member
  | and operands =>
    rw [node_and unmarked] at h
    refine (connective_includes (by simp)).part h ?_
    simpa [Node.values, Node.conditions, Node.clauses] using member
  | or operands =>
    rw [node_or unmarked] at h
    refine (connective_includes (by simp)).part h ?_
    simpa [Node.values, Node.conditions, Node.clauses] using member
  | not operand =>
    rw [node_not unmarked] at h
    refine not_includes.part h ?_
    simpa [Node.values, Node.conditions, Node.clauses] using member
  | comparison op left right =>
    rw [node_comparison unmarked] at h
    refine comparison_includes.part h ?_
    simpa [Node.values, Node.conditions, Node.clauses, Node.children] using member
  | like expr pattern escape =>
    rw [node_like unmarked] at h
    refine like_includes.part h ?_
    simpa [Node.values, Node.conditions, Node.clauses, Node.children, Option.toList_map] using member
  | regexpLike expr pattern =>
    rw [node_regexpLike unmarked] at h
    refine (regexpLike_includes lossless).part h ?_
    simpa [Node.values, Node.conditions, Node.clauses, Node.children] using member
  | between expr low high =>
    rw [node_between unmarked] at h
    refine between_includes.part h ?_
    simpa [Node.values, Node.conditions, Node.clauses, Node.children] using member
  | inList expr values =>
    rw [node_inList unmarked] at h
    refine inList_includes.part h ?_
    simpa [Node.values, Node.conditions, Node.clauses, Node.children] using member
  | inSubquery expr statement =>
    rw [node_inSubquery unmarked] at h
    refine inSubquery_includes.part h ?_
    simpa [Node.values, Node.conditions, Node.clauses] using member
  | isNull expr =>
    rw [node_isNull unmarked] at h
    refine isNull_includes.part h ?_
    simpa [Node.values, Node.conditions, Node.clauses, Node.children] using member
  | isNotNull expr =>
    rw [node_isNotNull unmarked] at h
    refine isNotNull_includes.part h ?_
    simpa [Node.values, Node.conditions, Node.clauses, Node.children] using member
  | function name args =>
    rw [node_function unmarked] at h
    refine (function_includes lossless).part h ?_
    simpa [Node.values, Node.conditions, Node.clauses, Node.children] using member
  | extract field arg =>
    rw [node_extract unmarked] at h
    refine extract_includes.part h ?_
    simpa [Node.values, Node.conditions, Node.clauses, Node.children] using member
  | cast arg type =>
    rw [node_cast unmarked] at h
    refine cast_includes.part h ?_
    simpa [Node.values, Node.conditions, Node.clauses, Node.children] using member
  | case basis branches otherwise =>
    rw [node_case unmarked] at h
    refine (case_includes simple).part h ?_
    rw [List.flatMap_map]
    cases basis with
    | none =>
      simp [Node.values, Node.conditions, Node.clauses, asCondition, Option.toList_map] at member ⊢
      grind
    | some basis =>
      simp [Node.values, Node.conditions, Node.clauses, asCondition, Option.toList_map] at member ⊢
      grind
  | aggregate name distinct args filter =>
    rw [node_aggregate unmarked] at h
    refine aggregate_includes.part h ?_
    simpa [Node.values, Node.conditions, Node.clauses, Option.toList_map] using member
  | groupConcat arg distinct order separator =>
    rw [node_groupConcat unmarked] at h
    refine groupConcat_includes.part h ?_
    simpa [Node.values, Node.conditions, Node.clauses, Option.toList_map] using member
  | window name args partition order frame =>
    rw [node_window unmarked] at h
    refine window_includes.part h ?_
    simpa [Node.values, Node.conditions, Node.clauses, Option.toList_map, or_assoc] using member
  | groupBy exprs =>
    rw [node_groupBy unmarked] at h
    refine groupBy_includes.part h ?_
    simpa [Node.values, Node.conditions, Node.clauses, Node.children] using member
  | orderBy keys =>
    rw [node_orderBy unmarked] at h
    refine orderBy_includes.inner (fun _ _ => sortKey_includes) h ?_
    simpa [Node.values, Node.conditions, Node.clauses, Node.children] using member
  | limit l => simp [Node.values, Node.conditions, Node.clauses, Node.children] at member

/-- If a tree is rendered, so is every part of every node, and its text occurs in that of the
tree. -/
theorem parts_occur (lossless : d.Lossless) (simple : d.has .simpleCase) {n : Node}
    (wellFormed : n.WellFormed) {s : Sql} (h : node d ctx n = .ok s) {m : Node}
    (inside : m ∈ n.nodes) {part : Result Sql} (member : part ∈ parts d ctx m) :
    ∃ t, part = .ok t ∧ t <:+: s := by
  induction n using Node.induction generalizing s with
  | step n ih =>
    have here {r : Result Sql} := @node_includes d ctx lossless simple n wellFormed.root s h r
    rw [Node.nodes_eq, List.mem_cons, List.mem_flatMap] at inside
    rcases inside with rfl | ⟨c, child, inside⟩
    · exact here member
    -- Only what has no parts becomes a comparison, so the child is rendered as it is.
    have inner : c.children ≠ [] := by
      intro none
      rw [Node.nodes_eq, none, List.flatMap_nil, List.mem_singleton] at inside
      rw [inside, parts_of_children_eq_nil none] at member
      simp at member
    have rendered : ∃ u, node d ctx c = .ok u ∧ u <:+: s := by
      have position := n.children_perm.mem_iff.mp child
      rw [List.mem_append, List.mem_append] at position
      rcases position with value | condition | clause
      · obtain ⟨t, same, occurs⟩ := here (mem_parts_of_value value)
        obtain ⟨u, written, below⟩ :=
          (asOperand_includes c _).part same (List.mem_singleton_self _)
        exact ⟨u, written, below.trans occurs⟩
      · obtain ⟨t, same, occurs⟩ := here (mem_parts_of_condition condition)
        obtain ⟨u, written, below⟩ :=
          (asPredicate_includes inner _).part same (List.mem_singleton_self _)
        exact ⟨u, written, below.trans occurs⟩
      · exact here (mem_parts_of_clause clause)
    obtain ⟨u, written, outer⟩ := rendered
    obtain ⟨t, same, within⟩ := ih c child (wellFormed.child child) written inside
    exact ⟨t, same, within.trans outer⟩

end

end Render

end Pushdown

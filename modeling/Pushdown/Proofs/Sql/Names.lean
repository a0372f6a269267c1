import Mathlib.Data.List.Forall2
import Pushdown.Proofs.Dialect.Capability
import Pushdown.Proofs.Sql.Expressible
import Pushdown.Proofs.Sql.Injection
import Pushdown.Proofs.Sql.Parts
import Pushdown.Proofs.Syntax.Identifiers

/-!
# No identifier is lost

A construct `Writes` its parts if its text has the names of the parts, those of each part once and
in their order, and no names of its own. Almost every function of the renderer does, so the names
of a statement are the identifiers that a walk over the tree meets. If all names are quoted, they
are the quoted tokens of the text.

A dialect without truth values repeats a condition that stands where a value is expected, and one
without a CASE that has a basis repeats the basis.
-/

namespace Pushdown

/-! ## The names of a text -/

def Fragment.names : Fragment → List String
  | .name a => [a]
  | .raw _ | .text _ => []

/-- The names in a text, in their order. -/
def Sql.names (s : Sql) : List String := s.flatMap Fragment.names

namespace Sql

@[simp] theorem names_nil : names [] = [] := rfl

@[simp] theorem names_cons (f : Fragment) (s : Sql) : names (f :: s) = f.names ++ names s := rfl

@[simp] theorem names_append (s t : Sql) : names (s ++ t) = s.names ++ t.names :=
  List.flatMap_append

@[simp] theorem names_raw (text : String) : (raw text).names = [] := rfl

@[simp] theorem names_parens (s : Sql) : (parens s).names = s.names := by
  simp [parens]

@[simp] theorem names_joinWith (separator : String) (parts : List Sql) :
    (joinWith separator parts).names = parts.flatMap names := by
  unfold joinWith
  induction parts with
  | nil => rfl
  | cons part parts ih =>
    cases parts with
    | nil => simp
    | cons next parts => simpa [List.intersperse] using ih

@[simp] theorem names_flatten (parts : List Sql) :
    names parts.flatten = parts.flatMap names := by
  induction parts with
  | nil => rfl
  | cons part parts ih => simp [ih]

@[simp] theorem names_clause (keyword : String) (t : Option Sql) :
    (Render.clause keyword t).names = t.toList.flatMap names := by
  cases t <;> simp [Render.clause]

/-- A template has no place for a name. -/
theorem names_fill (p : Profile) (template value : String) : (fill p template value).names = [] := by
  unfold fill names
  rw [List.flatMap_map]
  refine List.flatMap_eq_nil_iff.mpr fun part _ => ?_
  cases part <;> rfl

end Sql

/-- The name between the quotes of a token. -/
def Token.quoted? : Token → Option String
  | .quoted name => some name
  | _ => none

/-- If all names are quoted, they are the quoted tokens of a phrase. -/
theorem Phrase.filterMap_quoted {p : Profile} {quiet : Bool} {s : Sql}
    (h : Phrase p true quiet s) : (s.tokens p true).filterMap Token.quoted? = s.names := by
  have each : ∀ f ∈ s, (f.tokens p true).filterMap Token.quoted? = f.names := by
    intro f member
    cases f with
    | raw text =>
      refine List.filterMap_eq_nil_iff.mpr fun t inside => ?_
      have harmless := List.all_eq_true.mp (h.plain text member).2 t inside
      cases t <;> simp_all [Token.isHarmless, Token.quoted?]
    | name a => simp [Fragment.tokens, Fragment.names, Token.quoted?]
    | text a => simp [Fragment.tokens, Fragment.names, Token.quoted?]
  rw [Sql.tokens, List.filterMap_flatMap]
  exact List.flatMap_congr each

namespace Render

open Sql (raw joinWith parens)

/-- Whatever is rendered has these names. -/
abbrev Shows (names : List String) (r : Result Sql) : Prop := Ensures (fun s => s.names = names) r

/-- Whatever is rendered has the names of the parts, which are all rendered. -/
def Writes (parts : List (Result Sql)) (r : Result Sql) : Prop :=
  ∀ s, r = .ok s → ∃ ts : List Sql, parts = ts.map .ok ∧ s.names = ts.flatMap Sql.names

/-- A construct shows the identifiers of what its parts show. -/
theorem Writes.shows {α : Type} {parts : List (Result Sql)} {r : Result Sql} (h : Writes parts r)
    {xs : List α} {identifiers : α → List String}
    (each : List.Forall₂ (fun x part => Shows (identifiers x) part) xs parts) :
    Shows (xs.flatMap identifiers) r := by
  intro s rendered
  obtain ⟨ts, rfl, names⟩ := h s rendered
  rw [List.forall₂_map_right_iff] at each
  rw [names]
  clear names rendered h
  induction each with
  | nil => rfl
  | cons shown _ ih => rw [List.flatMap_cons, List.flatMap_cons, shown _ rfl, ih]

section

variable {d : Dialect} {ctx : Context}

/-! ## Leaves -/

theorem names_tableName (name : String) :
    (tableName d ctx name).names = ctx.qualify d name := by
  unfold tableName Context.qualify givenName
  by_cases catalog : d.profile.qualifyCatalog <;> by_cases schema : d.profile.qualifySchema <;>
    by_cases named : ctx.catalog = "" <;> by_cases spaced : ctx.schema = "" <;>
      simp [catalog, schema, named, spaced, Fragment.names]

theorem names_tableAlias (aliasName : String) : (tableAlias d aliasName).names = [aliasName] := by
  simp [tableAlias, Fragment.names]

theorem names_table (t : Table) : (table d ctx t).names = t.identifiers d ctx := by
  unfold table Table.identifiers givenName
  split <;> simp [names_tableName, names_tableAlias]

theorem names_column {c : Column} (tabled : c.table ≠ "") :
    (column d ctx c).names = c.identifiers d ctx := by
  unfold column Column.identifiers
  by_cases named : c.aliasName = "" <;> by_cases several : ctx.multipleTables <;>
    simp [named, several, tabled, names_tableName, Fragment.names]

theorem literal_shows (l : Literal) : Shows [] (literal d l) := by
  intro s rendered
  unfold literal at rendered
  split at rendered
  · cases rendered; rfl
  · split at rendered <;> cases rendered <;> rfl
  · cases rendered; rfl
  · cases rendered; rfl
  · cases rendered; rfl
  · cases rendered; exact Sql.names_fill ..
  · cases rendered; exact Sql.names_fill ..
  · cases rendered; exact Sql.names_fill ..
  · simp only [bind_eq_ok, pure_eq_ok] at rendered
    obtain ⟨-, -, rfl⟩ := rendered
    rfl
  · simp [refuse] at rendered

theorem limit_shows (l : Limit) : Shows [] (limit d l) := by
  intro s rendered
  rw [limit_eq_ok rendered, Sql.names_raw]

/-! ## Positions -/

theorem asOperand_shows {n : Node} (once : d.has .booleanLiterals ∨ n.isPredicate = false)
    {names : List String} {r : Result Sql} (h : Shows names r) :
    Shows names (asOperand d n r) := by
  intro s whole
  obtain ⟨t, rendered, rfl⟩ := asOperand_eq_ok.mp whole
  have shown := h t rendered
  unfold operandText
  split
  · rename_i condition
    have has : d.has .booleanLiterals := once.resolve_right (by simp [condition])
    simp [has, shown]
  · split
    · simp [shown]
    · exact shown

theorem asPredicate_shows {n : Node} {r : Result Sql} (h : Shows (n.identifiers d ctx) r) :
    Shows (n.identifiers d ctx) (asPredicate d n r) := by
  intro s whole
  rcases asPredicate_eq_ok whole with rendered | ⟨-, ⟨l, rfl, -, rfl⟩ | ⟨c, t, rfl, -, rendered, rfl⟩⟩
  · exact h s rendered
  · rw [Node.identifiers_eq_children (by simp [Node.kind])]
    rfl
  · simpa using h t rendered

/-! ## Predicates -/

theorem connective_writes {word : String} {operands : List Node} {conditions : List (Result Sql)}
    (same : operands.length = conditions.length) :
    Writes conditions (connective word operands conditions) := by
  intro s whole
  obtain ⟨parts, rfl, rfl⟩ := connective_eq_ok.mp whole
  refine ⟨parts, rfl, ?_⟩
  have each : ∀ c ∈ operands.zip parts,
      (if c.1.isConnective && (operands.zip parts).length > 1 then parens c.2 else c.2).names =
        c.2.names := by
    intro c _
    split <;> simp
  rw [List.length_map] at same
  rw [connect, Sql.names_joinWith, List.flatMap_map, List.flatMap_congr each,
    ← List.flatMap_map (f := Prod.snd), List.map_snd_zip (by omega)]

theorem not_writes {condition : Result Sql} : Writes [condition] (not condition) := by
  intro s whole
  obtain ⟨c, rfl, rfl⟩ := not_eq_ok.mp whole
  exact ⟨[c], rfl, by simp⟩

theorem comparison_writes {op : ComparisonOp} {left right : Result Sql} :
    Writes [left, right] (comparison op left right) := by
  intro s whole
  obtain ⟨l, r, rfl, rfl, rfl⟩ := comparison_eq_ok.mp whole
  exact ⟨[l, r], rfl, by simp⟩

theorem like_writes {expr pattern : Result Sql} {escape : Option (Result Sql)} :
    Writes (expr :: pattern :: escape.toList) (like expr pattern escape) := by
  intro s whole
  obtain ⟨e, p, x, rfl, rfl, rfl, rfl⟩ := like_eq_ok.mp whole
  exact ⟨e :: p :: x.toList, by simp [Option.toList_map], by simp⟩

theorem between_writes {expr low high : Result Sql} :
    Writes [expr, low, high] (between expr low high) := by
  intro s whole
  obtain ⟨e, l, h, rfl, rfl, rfl, rfl⟩ := between_eq_ok.mp whole
  exact ⟨[e, l, h], rfl, by simp⟩

theorem inList_writes {expr : Result Sql} {values : List (Result Sql)} :
    Writes (expr :: values) (inList expr values) := by
  intro s whole
  obtain ⟨e, vs, rfl, rfl, rfl⟩ := inList_eq_ok.mp whole
  exact ⟨e :: vs, rfl, by simp⟩

theorem inSubquery_writes {expr statement : Result Sql} :
    Writes [expr, statement] (inSubquery d expr statement) := by
  intro s whole
  obtain ⟨-, e, t, rfl, rfl, rfl⟩ := inSubquery_eq_ok.mp whole
  exact ⟨[e, t], rfl, by simp⟩

theorem isNull_writes {expr : Result Sql} : Writes [expr] (isNull expr) := by
  intro s whole
  obtain ⟨e, rfl, rfl⟩ := isNull_eq_ok.mp whole
  exact ⟨[e], rfl, by simp⟩

theorem isNotNull_writes {expr : Result Sql} : Writes [expr] (isNotNull expr) := by
  intro s whole
  obtain ⟨e, rfl, rfl⟩ := isNotNull_eq_ok.mp whole
  exact ⟨[e], rfl, by simp⟩

/-! ## Calls -/

theorem apply_arity {kind : Kind} {spec : FunctionSpec} {args : List (Result Sql)} {s : Sql}
    (h : apply d kind spec args = .ok s) (fixed : 0 ≤ spec.arity) :
    (args.length : Int) = spec.arity := by
  unfold apply at h
  split at h
  · simp [refuse] at h
  · rename_i fits
    exact not_not.mp fun other => fits ⟨fixed, other⟩

theorem apply_writes (kind : Kind) {spec : FunctionSpec} (writes : spec.WritesArguments)
    (args : List (Result Sql)) : Writes args (apply d kind spec args) := by
  intro s whole
  rcases apply_eq_ok whole with ⟨style, rfl⟩ | ⟨arg, rest, style, rfl, rfl⟩ |
    ⟨parts, -, rfl, rfl⟩ | ⟨parts, -, rfl, rfl⟩
  · have arity := writes.1 style
    have count := apply_arity whole (by omega)
    obtain rfl : args = [] := List.eq_nil_of_length_eq_zero (by omega)
    exact ⟨[], rfl, by simp⟩
  · have arity := writes.2 style
    have count := apply_arity whole (by omega)
    obtain rfl : rest = [] := List.eq_nil_of_length_eq_zero (by simp at count; omega)
    exact ⟨[arg], rfl, by simp⟩
  · exact ⟨parts, rfl, by simp⟩
  · exact ⟨parts, rfl, by simp⟩

theorem function_writes (lossless : d.Lossless) {name : String} {args : List (Result Sql)} :
    Writes args (function d name args) := by
  intro s whole
  obtain ⟨spec, found, rendered⟩ := function_eq_ok.mp whole
  exact apply_writes .function (lossless.functions.get? found) args s rendered

theorem regexpLike_writes (lossless : d.Lossless) {expr pattern : Result Sql} :
    Writes [expr, pattern] (regexpLike d expr pattern) := fun s whole =>
  apply_writes .regexpLike lossless.regexp _ s (regexpLike_eq_ok.mp whole).2

theorem extract_writes {part : DatePart} {arg : Result Sql} :
    Writes [arg] (extract d part arg) := by
  intro s whole
  obtain ⟨a, rfl, rfl | rfl | ⟨format, type, -, rfl⟩⟩ := extract_eq_ok whole
  · exact ⟨[a], rfl, by simp⟩
  · exact ⟨[a], rfl, by simp⟩
  · exact ⟨[a], rfl, by simp [Fragment.names]⟩

theorem cast_writes {type : DataType} {arg : Result Sql} : Writes [arg] (cast d type arg) := by
  intro s whole
  obtain ⟨name, a, -, rfl, rfl⟩ := cast_eq_ok.mp whole
  refine ⟨[a], rfl, ?_⟩
  split <;> simp

/-- The branches of a CASE write their conditions and results. -/
theorem branches_writes (simple : d.has .simpleCase) (basis : Option Sql)
    {branches : List (Result Sql × Result Sql)} {parts : List Sql}
    (rendered : branches.map (fun (condition, result) => branch d basis condition result) =
      parts.map .ok) :
    ∃ ts : List Sql, branches.flatMap (fun b => [b.1, b.2]) = ts.map .ok ∧
      parts.flatMap Sql.names = ts.flatMap Sql.names := by
  induction branches generalizing parts with
  | nil =>
    obtain rfl : parts = [] := by simpa [eq_comm] using rendered
    exact ⟨[], rfl, rfl⟩
  | cons b branches ih =>
    cases parts with
    | nil => simp at rendered
    | cons part parts =>
      simp only [List.map_cons, List.cons.injEq] at rendered
      obtain ⟨first, rest⟩ := rendered
      obtain ⟨c, r, conditionRendered, resultRendered, rfl⟩ := branch_eq_ok.mp first
      obtain ⟨ts, restRendered, names⟩ := ih rest
      refine ⟨c :: r :: ts, by simp [conditionRendered, resultRendered, restRendered], ?_⟩
      have compared : (branchCondition d basis c).names = c.names := by
        unfold branchCondition
        split <;> simp [simple]
      simp [compared, names]

theorem case_writes (simple : d.has .simpleCase) {basis : Option (Result Sql)}
    {branches : List (Result Sql × Result Sql)} {otherwise : Option (Result Sql)} :
    Writes (basis.toList ++ branches.flatMap (fun b => [b.1, b.2]) ++ otherwise.toList)
      (case d basis branches otherwise) := by
  intro s whole
  obtain ⟨b, parts, e, rfl, rendered, rfl, rfl⟩ := case_eq_ok.mp whole
  obtain ⟨ts, listed, names⟩ := branches_writes simple b rendered
  exact ⟨b.toList ++ ts ++ e.toList, by simp [listed, Option.toList_map],
    by simp [simple, names]⟩

theorem aggregateArguments_writes {distinct : Bool} {args : List (Result Sql)} :
    Writes args (aggregateArguments distinct args) := by
  intro s whole
  obtain ⟨parts, rfl, rfl⟩ := aggregateArguments_eq_ok.mp whole
  refine ⟨parts, rfl, ?_⟩
  cases parts <;> cases distinct <;> simp

theorem filterClause_writes {filter : Option (Result Sql)} :
    Writes filter.toList (filterClause d filter) := by
  intro s whole
  obtain ⟨-, c, rfl, rfl⟩ := filterClause_eq_ok.mp whole
  refine ⟨c.toList, Option.toList_map .., ?_⟩
  cases c <;> simp [filterText]

theorem aggregate_writes {name : String} {distinct : Bool} {args : List (Result Sql)}
    {filter : Option (Result Sql)} :
    Writes (args ++ filter.toList) (aggregate d name distinct args filter) := by
  intro s whole
  obtain ⟨spelling, a, f, -, argsRendered, filterRendered, rfl⟩ := aggregate_eq_ok.mp whole
  obtain ⟨parts, argsListed, argsNames⟩ := aggregateArguments_writes a argsRendered
  obtain ⟨conditions, filterListed, filterNames⟩ := filterClause_writes f filterRendered
  exact ⟨parts ++ conditions, by rw [argsListed, filterListed, List.map_append],
    by simp [argsNames, filterNames]⟩

theorem names_concatCall (style : ConcatStyle) (distinct : Bool) (arg : Sql) (order : Option Sql)
    (separator : Option String) : (concatCall style distinct arg order separator).names =
      arg.names ++ order.toList.flatMap Sql.names := by
  unfold concatCall
  cases style <;> cases order <;> cases separator <;> cases distinct <;>
    simp [Fragment.names]

theorem groupConcat_writes {arg : Result Sql} {distinct : Bool} {order : Option (Result Sql)}
    {separator : Option String} :
    Writes (arg :: order.toList) (groupConcat d arg distinct order separator) := by
  intro s whole
  obtain ⟨-, a, o, rfl, rfl, rfl⟩ := groupConcat_eq_ok.mp whole
  exact ⟨a :: o.toList, by simp [Option.toList_map], by simp [names_concatCall]⟩

theorem window_writes {name : String} {args partition : List (Result Sql)}
    {order : Option (Result Sql)} {bounds : Option Frame} :
    Writes (args ++ partition ++ order.toList) (window d name args partition order bounds) := by
  intro s whole
  obtain ⟨-, spelling, l, p, o, -, rfl, rfl, rfl, rfl⟩ := window_eq_ok.mp whole
  refine ⟨l ++ p ++ o.toList, by simp [Option.toList_map], ?_⟩
  have list : (windowList name l).names = l.flatMap Sql.names := by
    unfold windowList
    split
    · rename_i empty
      simp only [Bool.and_eq_true, List.isEmpty_iff] at empty
      simp [empty.1]
    · simp
  have parts : (windowParts p o bounds).flatMap Sql.names =
      p.flatMap Sql.names ++ o.toList.flatMap Sql.names := by
    cases p <;> cases bounds <;> simp [windowParts]
  simp [list, parts]

/-! ## Clauses -/

theorem selectList_writes {star : Bool} {items : List (Result Sql)} (listed : star → items = []) :
    Writes items (selectList d star items) := by
  intro s whole
  have forms := selectList_eq_ok.mp whole
  split at forms
  · rename_i all
    obtain rfl := listed all
    exact ⟨[], rfl, by simp [← forms]⟩
  · obtain ⟨parts, rfl, rfl⟩ := forms
    refine ⟨parts, rfl, ?_⟩
    cases parts <;> simp

theorem selectItem_shows {aliasName : String} {expr : Result Sql} {names : List String}
    (h : Shows names expr) : Shows (names ++ givenName aliasName) (selectItem aliasName expr) := by
  intro s whole
  obtain ⟨e, rendered, rfl⟩ := selectItem_eq_ok.mp whole
  have shown := h e rendered
  unfold givenName
  split <;> simp [shown, Fragment.names]

theorem join_writes {type : JoinType} {left : Result Sql} {rightKind : Kind}
    {right condition : Result Sql} :
    Writes [left, right, condition] (join d type left rightKind right condition) := by
  intro s whole
  obtain ⟨keyword, l, r, c, -, rfl, rfl, rfl, rfl⟩ := join_eq_ok.mp whole
  refine ⟨[l, r, c], rfl, ?_⟩
  split <;> simp

theorem subSelect_shows {statement : Result Sql} {aliasName : String} {names : List String}
    (h : Shows names statement) : Shows (names ++ [aliasName]) (subSelect d statement aliasName) := by
  intro s whole
  obtain ⟨-, t, rendered, rfl⟩ := subSelect_eq_ok.mp whole
  simp [h t rendered, names_tableAlias]

theorem sortKey_shows {ascending nullsLast : Bool} {expr : Result Sql} {names : List String}
    (h : Shows names expr) : Shows names (sortKey d ascending nullsLast expr) := by
  intro s whole
  obtain ⟨e, rendered, rfl⟩ := sortKey_eq_ok.mp whole
  simp [h e rendered]

theorem orderBy_writes {keys : List (Result Sql)} : Writes keys (orderBy keys) := by
  intro s whole
  obtain ⟨parts, rfl, rfl⟩ := orderBy_eq_ok.mp whole
  exact ⟨parts, rfl, by simp⟩

theorem groupBy_writes {exprs : List (Result Sql)} : Writes exprs (groupBy exprs) := by
  intro s whole
  obtain ⟨parts, rfl, rfl⟩ := groupBy_eq_ok.mp whole
  exact ⟨parts, rfl, by simp⟩

/-- A statement writes its clauses in their order; the limit has no names, so it does not matter
where it stands. -/
theorem select_writes {limit : Option (Result Sql)} (unnamed : ∀ r ∈ limit, Shows [] r)
    {list : Result Sql} {source filter grouping having order : Option (Result Sql)} :
    Writes (list :: (source.toList ++ filter.toList ++ grouping.toList ++ having.toList ++
      order.toList ++ limit.toList)) (select d limit list source filter grouping having order) := by
  intro s whole
  obtain ⟨n, l, f, w, g, h, o, rfl, rfl, rfl, rfl, rfl, rfl, rfl, rfl⟩ := select_eq_ok.mp whole
  refine ⟨l :: (f.toList ++ w.toList ++ g.toList ++ h.toList ++ o.toList ++ n.toList),
    by simp [Option.toList_map], ?_⟩
  have limited : n.toList.flatMap Sql.names = [] := by
    cases n with
    | none => rfl
    | some t => simpa using unnamed (.ok t) rfl t rfl
  have top : (limitOnTop d n).names = [] := by
    unfold limitOnTop
    cases n <;> split <;> simp_all
  have bottom : (limitAtEnd d n).names = [] := by
    unfold limitAtEnd
    split <;> simp [limited]
  have sourced : (fromClause d f).names = f.toList.flatMap Sql.names := by
    unfold fromClause
    cases f with
    | none => simp only; split <;> simp
    | some t => simp
  simp [top, bottom, sourced, limited]

/-! ## The tree -/

/-- The parts show the identifiers of the trees. -/
abbrev ShowEach (d : Dialect) (ctx : Context) : List Node → List (Result Sql) → Prop :=
  List.Forall₂ fun c part => Shows (c.identifiers d ctx) part

namespace ShowEach

theorem map {f : Node → Result Sql} {cs : List Node}
    (each : ∀ c ∈ cs, Shows (c.identifiers d ctx) (f c)) : ShowEach d ctx cs (cs.map f) :=
  List.forall₂_map_right_iff.mpr (List.forall₂_same.mpr each)

theorem option {f : Node → Result Sql} {o : Option Node}
    (each : ∀ c ∈ o, Shows (c.identifiers d ctx) (f c)) :
    ShowEach d ctx o.toList (o.map f).toList := by
  rw [Option.toList_map]
  exact .map fun c member => each c (Option.mem_toList.mp member)

/-- A clause that a tree is made of. -/
theorem clause {α : Type} {tree : α → Node} {f : α → Result Sql} {o : Option α}
    (each : ∀ a ∈ o, Shows ((tree a).identifiers d ctx) (f a)) :
    ShowEach d ctx (o.map tree).toList (o.map f).toList := by
  cases o with
  | none => exact .nil
  | some a => exact .cons (each a rfl) .nil

theorem flatMap {α : Type} {xs : List α} {trees : α → List Node} {parts : α → List (Result Sql)}
    (each : ∀ x ∈ xs, ShowEach d ctx (trees x) (parts x)) :
    ShowEach d ctx (xs.flatMap trees) (xs.flatMap parts) := by
  induction xs with
  | nil => exact .nil
  | cons x xs ih =>
    exact List.rel_append (each x (by simp)) (ih fun y member => each y (by simp [member]))

end ShowEach

/-- A construct that has no names but those of its children shows its identifiers. -/
theorem Writes.identifiers {n : Node} (plain : n.kind ∉ [.column, .table, .selectList, .subSelect])
    {parts : List (Result Sql)} {r : Result Sql} (h : Writes parts r)
    (each : ShowEach d ctx n.children parts) : Shows (n.identifiers d ctx) r := by
  rw [Node.identifiers_eq_children plain]
  exact h.shows each

/-- A node shows its identifiers if its children do. -/
theorem node_shows_step (lossless : d.Lossless) (simple : d.has .simpleCase) {n : Node}
    (rules : n.KeepsRules)
    (once : d.has .booleanLiterals ∨ ∀ v ∈ n.values, v.isPredicate = false)
    (below : ∀ c ∈ n.children, Shows (c.identifiers d ctx) (node d ctx c)) :
    Shows (n.identifiers d ctx) (node d ctx n) := by
  have unmarked := lossless.unmarked
  have value : ∀ v ∈ n.values, Shows (v.identifiers d ctx) (asOperand d v (node d ctx v)) := by
    intro v member
    exact asOperand_shows (once.imp_right fun all => all v member)
      (below v (Node.mem_children_of_mem_values member))
  have condition : ∀ c ∈ n.children,
      Shows (c.identifiers d ctx) (asPredicate d c (node d ctx c)) := fun c child =>
    asPredicate_shows (below c child)
  clear once
  cases n with
  | select s =>
    rw [node_select unmarked]
    have unnamed : ∀ r ∈ s.limit.map fun l => node d ctx (.limit l), Shows [] r := by
      rw [Option.forall_mem_map]
      intro l _
      rw [node_limit unmarked]
      exact limit_shows l
    have child {c : Node} (h : c ∈ (Node.select s).children) := below c h
    refine (select_writes unnamed).identifiers (by simp [Node.kind])
      (.cons (child (by simp [Node.children])) ?_)
    refine List.rel_append (List.rel_append (List.rel_append (List.rel_append (List.rel_append
      ?_ ?_) ?_) ?_) ?_) ?_
    · exact ShowEach.option fun item given => child (by simp [Node.children, Option.mem_def.mp given])
    · exact ShowEach.option fun c given => condition c (by simp [Node.children, Option.mem_def.mp given])
    · exact ShowEach.clause fun exprs given => child (by simp [Node.children, Option.mem_def.mp given])
    · exact ShowEach.option fun c given => condition c (by simp [Node.children, Option.mem_def.mp given])
    · exact ShowEach.clause fun keys given => child (by simp [Node.children, Option.mem_def.mp given])
    · exact ShowEach.clause fun l given => child (by simp [Node.children, Option.mem_def.mp given])
  | selectList l =>
    rw [node_selectList unmarked, Node.identifiers_selectList]
    have listed : l.star → l.items.map (fun item =>
        selectItem item.aliasName (asOperand d item.expr (node d ctx item.expr))) = [] := by
      intro star
      rw [rules star, List.map_nil]
    refine (selectList_writes listed).shows
      (List.forall₂_map_right_iff.mpr (List.forall₂_same.mpr fun item member => ?_))
    exact selectItem_shows (value _ (List.mem_map_of_mem member))
  | table t =>
    rw [node_table unmarked, Node.identifiers_table]
    rintro _ ⟨⟩
    exact names_table t
  | join type left right c =>
    rw [node_join unmarked]
    exact join_writes.identifiers (by simp [Node.kind])
      (.cons (below _ (by simp [Node.children])) (.cons (below _ (by simp [Node.children]))
        (.cons (condition _ (by simp [Node.children])) .nil)))
  | subSelect s aliasName =>
    rw [node_subSelect unmarked, Node.identifiers_subSelect]
    exact subSelect_shows (below _ (by simp [Node.children]))
  | column c =>
    rw [node_column unmarked, Node.identifiers_column]
    rintro _ ⟨⟩
    exact names_column rules.2
  | literal l =>
    rw [node_literal unmarked, Node.identifiers_eq_children (by simp [Node.kind])]
    exact literal_shows l
  | and operands =>
    rw [node_and unmarked]
    exact (connective_writes (by simp)).identifiers (by simp [Node.kind]) (.map condition)
  | or operands =>
    rw [node_or unmarked]
    exact (connective_writes (by simp)).identifiers (by simp [Node.kind]) (.map condition)
  | not c =>
    rw [node_not unmarked]
    exact not_writes.identifiers (by simp [Node.kind])
      (.cons (condition _ (by simp [Node.children])) .nil)
  | comparison op left right =>
    rw [node_comparison unmarked]
    exact comparison_writes.identifiers (by simp [Node.kind]) (.map value)
  | like expr pattern escape =>
    rw [node_like unmarked]
    exact like_writes.identifiers (by simp [Node.kind])
      (.cons (value _ (by simp [Node.values, Node.children]))
        (.cons (value _ (by simp [Node.values, Node.children]))
          (ShowEach.option fun x given => value x (by simp_all [Node.values, Node.children]))))
  | regexpLike expr pattern =>
    rw [node_regexpLike unmarked]
    exact (regexpLike_writes lossless).identifiers (by simp [Node.kind]) (.map value)
  | between expr low high =>
    rw [node_between unmarked]
    exact between_writes.identifiers (by simp [Node.kind]) (.map value)
  | inList expr values =>
    rw [node_inList unmarked]
    exact inList_writes.identifiers (by simp [Node.kind]) (.map value)
  | inSubquery expr s =>
    rw [node_inSubquery unmarked]
    exact inSubquery_writes.identifiers (by simp [Node.kind])
      (.cons (value _ (by simp [Node.values])) (.cons (below _ (by simp [Node.children])) .nil))
  | isNull expr =>
    rw [node_isNull unmarked]
    exact isNull_writes.identifiers (by simp [Node.kind]) (.map value)
  | isNotNull expr =>
    rw [node_isNotNull unmarked]
    exact isNotNull_writes.identifiers (by simp [Node.kind]) (.map value)
  | function name args =>
    rw [node_function unmarked]
    exact (function_writes lossless).identifiers (by simp [Node.kind]) (.map value)
  | extract part arg =>
    rw [node_extract unmarked]
    exact extract_writes.identifiers (by simp [Node.kind]) (.map value)
  | cast arg type =>
    rw [node_cast unmarked]
    exact cast_writes.identifiers (by simp [Node.kind]) (.map value)
  | case basis branches otherwise =>
    rw [node_case unmarked]
    have branch {b : Branch Node} (member : b ∈ branches) :
        Shows (b.condition.identifiers d ctx)
          (asCondition d basis.isSome b.condition (node d ctx b.condition)) ∧
        Shows (b.result.identifiers d ctx) (asOperand d b.result (node d ctx b.result)) := by
      have inside : ∀ v ∈ (if basis.isSome then [b.condition, b.result] else [b.result]),
          v ∈ (Node.case basis branches otherwise).values := by
        intro v listed
        simp only [Node.values, List.mem_append, List.mem_flatMap]
        exact .inl (.inr ⟨b, member, listed⟩)
      unfold asCondition
      split
      · rename_i based
        rw [if_pos based] at inside
        exact ⟨value _ (inside _ (by simp)), value _ (inside _ (by simp))⟩
      · rename_i searched
        rw [if_neg searched] at inside
        exact ⟨condition _ (Node.condition_mem_children member), value _ (inside _ (by simp))⟩
    refine (case_writes simple).identifiers (by simp [Node.kind]) ?_
    refine List.rel_append (List.rel_append ?_ ?_) ?_
    · exact ShowEach.option fun b given => value b (by simp_all [Node.values])
    · rw [List.flatMap_map]
      exact ShowEach.flatMap fun b member =>
        .cons (branch member).1 (.cons (branch member).2 .nil)
    · exact ShowEach.option fun e given => value e (by simp_all [Node.values])
  | aggregate name distinct args filter =>
    rw [node_aggregate unmarked]
    exact aggregate_writes.identifiers (by simp [Node.kind])
      (List.rel_append (ShowEach.map value)
        (ShowEach.option fun c given => condition c (by simp [Node.children, Option.mem_def.mp given])))
  | groupConcat arg distinct order separator =>
    rw [node_groupConcat unmarked]
    exact groupConcat_writes.identifiers (by simp [Node.kind])
      (.cons (value _ (by simp [Node.values]))
        (ShowEach.clause fun keys given => below _ (by simp [Node.children, Option.mem_def.mp given])))
  | window name args partition order frame =>
    rw [node_window unmarked]
    refine window_writes.identifiers (by simp [Node.kind])
      (List.rel_append (List.rel_append ?_ ?_) ?_)
    · exact ShowEach.map fun a member => value a (by simp [Node.values, member])
    · exact ShowEach.map fun a member => value a (by simp [Node.values, member])
    · exact ShowEach.clause fun keys given => below _ (by simp [Node.children, Option.mem_def.mp given])
  | groupBy exprs =>
    rw [node_groupBy unmarked]
    exact groupBy_writes.identifiers (by simp [Node.kind]) (.map value)
  | orderBy keys =>
    rw [node_orderBy unmarked]
    refine orderBy_writes.identifiers (by simp [Node.kind]) ?_
    refine List.forall₂_map_left_iff.mpr (List.forall₂_map_right_iff.mpr
      (List.forall₂_same.mpr fun key member => ?_))
    exact sortKey_shows (value _ (List.mem_map_of_mem member))
  | limit l =>
    rw [node_limit unmarked, Node.identifiers_eq_children (by simp [Node.kind])]
    exact limit_shows l

/-- Every tree shows its identifiers. -/
theorem node_shows (lossless : d.Lossless) (simple : d.has .simpleCase) {n : Node}
    (wellFormed : n.WellFormed) (once : d.has .booleanLiterals ∨ n.ValuesOnly) :
    Shows (n.identifiers d ctx) (node d ctx n) := by
  induction n using Node.induction with
  | step n ih =>
    obtain ⟨rules, below⟩ := Node.everywhere_iff.mp wellFormed
    exact node_shows_step lossless simple rules (once.imp_right (·.root)) fun c child =>
      ih c child (below c child) (once.imp_right (·.child child))

end

end Render

/-- In every built-in dialect that quotes all names, the quoted tokens in the text of a tree are the
identifiers that a walk over the tree meets, in the same order, and the walk meets those of each
node once. In a database without truth values this holds if no condition stands where a value is
expected. -/
theorem Builtin.generate_quotes_identifiers (b : Builtin) (notes : Notes)
    (mark : b = .generic → notes.NamesMark) {ctx : Context} (quoted : ctx.quoteNames = true)
    {n : Node} (wellFormed : n.WellFormed)
    (values : b = .sqlServer ∨ b = .oracle → n.ValuesOnly) {sql : String}
    (generated : (b.build notes).generate ctx (some n) = .ok sql) :
    ∃ ts, Lexer.scan (b.build notes).profile sql.toList = some ts ∧
      ts.filterMap Token.quoted? = n.identifiers (b.build notes) ctx ∧
      (n.identifiers (b.build notes) ctx).Perm (n.nodes.flatMap fun m =>
        m.leading (b.build notes) ctx ++ m.labelled.flatMap (·.2)) := by
  have once : (b.build notes).has .booleanLiterals ∨ n.ValuesOnly := by
    rw [b.has_booleanLiterals_iff notes]
    by_cases lacks : b = .sqlServer ∨ b = .oracle
    · exact .inr (values lacks)
    · exact .inl (not_or.mp lacks)
  obtain ⟨fragments, rendered, rfl, phrase⟩ :=
    (b.readable notes mark).generate_phrase wellFormed generated
  have names : fragments.names = n.identifiers (b.build notes) ctx :=
    Render.node_shows (b.lossless notes) (b.has_simpleCase notes) wellFormed once fragments rendered
  rw [quoted] at phrase ⊢
  exact ⟨_, phrase.scanned, phrase.filterMap_quoted.trans names, n.identifiers_perm⟩

/-- The brackets inside a name and a text do not end or begin an identifier. -/
theorem Builtin.sqlServer_quotes_identifiers :
    let d := Builtin.sqlServer.build {}
    let ctx : Context := { schema := "s", quoteNames := true }
    let n : Node := .select {
      list := { items := [
        { expr := .column { table := "T", name := "a]b" }, aliasName := "x" },
        { expr := .literal { type := .string, value := "[no] 'name'" } }] }
      source := some (.table { name := "T" })
      limit := some { count := 5 } }
    let sql := "SELECT TOP 5 [a]]b] AS [x], '[no] ''name''' FROM [s].[T]"
    d.generate ctx (some n) = .ok sql ∧ ∃ ts, Lexer.scan d.profile sql.toList = some ts ∧
      ts.filterMap Token.quoted? = ["a]b", "x", "s", "T"] := by
  intro d ctx n sql
  have nodes : n.nodes = [n, .selectList ⟨false, [⟨.column { table := "T", name := "a]b" }, "x"⟩,
      ⟨.literal { type := .string, value := "[no] 'name'" }, ""⟩]⟩,
      .column { table := "T", name := "a]b" },
      .literal { type := .string, value := "[no] 'name'" }, .table { name := "T" },
      .limit { count := 5 }] := by
    simp [n, Node.nodes_eq, Node.children]
  have wellFormed : n.WellFormed := by
    intro m member
    simp only [nodes, List.mem_cons, List.not_mem_nil, or_false] at member
    rcases member with rfl | rfl | rfl | rfl | rfl | rfl
    · exact ⟨by simp [Node.isFromItem, Node.kind], by simp, by simp, by simp, by simp⟩
    all_goals simp [Node.KeepsRules, Literal.KeepsFormat]
  have values : n.ValuesOnly := by
    intro m member
    simp only [nodes, List.mem_cons, List.not_mem_nil, or_false] at member
    rcases member with rfl | rfl | rfl | rfl | rfl | rfl <;>
      simp [n, Node.values, Node.children, Node.isPredicate, Node.kind]
  have evaluated : (d.generate ctx (some n)).toOption = some sql := by decide +kernel
  have generated : d.generate ctx (some n) = .ok sql := by
    cases outcome : d.generate ctx (some n) <;> simp_all [Except.toOption]
  have identifiers : n.identifiers d ctx = ["a]b", "x", "s", "T"] := by
    have schema : d.profile.qualifySchema = true := rfl
    simp [n, ctx, Node.identifiers_eq_children, Node.kind, Node.children, Column.identifiers,
      Table.identifiers, Context.qualify, givenName, schema]
  have all : ctx.quoteNames = true := rfl
  obtain ⟨ts, scanned, quoted, -⟩ := Builtin.generate_quotes_identifiers .sqlServer {} (by simp)
    all wellFormed (fun _ => values) generated
  exact ⟨generated, ts, scanned, quoted.trans identifiers⟩

end Pushdown

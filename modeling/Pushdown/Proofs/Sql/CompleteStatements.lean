import Pushdown.Proofs.Sql.Operands

/-!
# Statements in which no operand is missing

The text of every node leads from the gaps where nodes of its kind stand to those behind them.
Values and conditions are operands; a projection, a list of keys and a row limit have places of
their own. From this follows, by induction over the tree, that each token in the statement of a
request has the operands that it needs. Parentheses are left empty only where texts are joined by an
operator and there are no texts.
-/

namespace Pushdown

theorem Node.hasOperands_iff {d : Dialect} {n : Node} :
    n.HasOperands d ↔ ¬ n.LacksOperands d ∧ ∀ c ∈ n.children, c.HasOperands d :=
  Node.everywhere_iff

theorem Node.hasOperands_of_literal {d : Dialect} {n : Node} (h : n.kind = .literal) :
    n.HasOperands d := by
  rw [hasOperands_iff]
  cases n <;> simp_all [kind, LacksOperands, children]

/-- Where the texts of nodes stand. -/
def Kind.starts (d : Dialect) : Kind → List Gap
  | .select => [.free, .opened]
  | .selectList => [.projection]
  | .groupBy | .orderBy => [.ended, .opened, .called]
  | .limit => [Render.limitGap d.profile.limitStyle]
  | _ => Gap.beginnings

/-- What stands behind the texts of nodes. -/
def Kind.stops (d : Dialect) : Kind → List Gap
  | .limit => [Render.limitGap d.profile.limitStyle]
  | _ => [.ended]

namespace Render

open Sql (raw joinWith parens)

section

variable {d : Dialect} {ctx : Context} {v : Vocabulary} {P Q R : Prop} {ok : Node → Prop}

/-- The text groups or sorts by some keys. -/
abbrev IsKeys (v : Vocabulary) (filled : Prop) (s : Sql) : Prop :=
  s.Reaches v [.ended, .opened, .called] [.ended] filled

/-- Whatever is rendered groups or sorts by some keys. -/
abbrev Keys (v : Vocabulary) (filled : Prop) (r : Result Sql) : Prop := Ensures (IsKeys v filled) r

/-- The same under a condition that says the same. -/
theorem Ensures.same {starts stops : List Gap} {r : Result Sql}
    (h : Ensures (Sql.Reaches v starts stops P) r) (same : P ↔ Q) :
    Ensures (Sql.Reaches v starts stops Q) r :=
  h.imp fun _ part => part.congr same

/-! ## Aggregates and windows -/

theorem aggregateArguments_reaches {distinct : Bool} {args : List Node} {f : Node → Result Sql}
    (h : ∀ x ∈ args, Operand v (ok x) (f x)) :
    Ensures (Sql.Reaches v [.called] [.ended] (∀ x ∈ args, ok x))
      (aggregateArguments distinct (args.map f)) := by
  intro s whole
  obtain ⟨parts, rendered, rfl⟩ := aggregateArguments_eq_ok.mp whole
  have each := Ensures.each h rendered
  cases args with
  | nil =>
    obtain rfl : parts = [] := by simpa [eq_comm] using rendered
    exact (Sql.Reaches.ofConst [.ended] (by decide)).congr (by simp)
  | cons x args =>
    have nonempty : parts.isEmpty = false := by
      cases each with
      | cons => rfl
    rw [nonempty, if_neg Bool.false_ne_true]
    have list := Sql.Reaches.commas (by simp) each
    split
    · exact .lead [.needed] (by decide) list (by decide)
    · exact list.weaken (by decide) (List.Subset.refl _)

theorem filterClause_reaches {filter : Option Node} {f : Node → Result Sql}
    (h : ∀ x ∈ filter, Operand v (ok x) (f x)) :
    Ensures (Sql.Reaches v [.ended] [.ended] (∀ x ∈ filter, ok x))
      (filterClause d (filter.map f)) := by
  intro s whole
  obtain ⟨-, c, rendered, rfl⟩ := filterClause_eq_ok.mp whole
  cases Ensures.given h rendered with
  | none => exact Sql.Reaches.nil.congr (by simp)
  | @some x t condition =>
    have kept : (raw " FILTER (WHERE " ++ t).Reaches v [.ended] [.ended] (ok x) :=
      .lead [.needed] (by decide) condition (by decide)
    exact (kept.const ")" [.ended] (by decide)).congr (by simp)

theorem aggregate_operand (fits : d.Fits) (name : String) (distinct : Bool) {args : List Node}
    {filter : Option Node} {f g : Node → Result Sql}
    (ha : ∀ x ∈ args, Operand d.profile.vocabulary (ok x) (f x))
    (hc : ∀ x ∈ filter, Operand d.profile.vocabulary (ok x) (g x)) :
    Operand d.profile.vocabulary ((∀ x ∈ args, ok x) ∧ ∀ x ∈ filter, ok x)
      (aggregate d name distinct (args.map f) (filter.map g)) := by
  intro s whole
  obtain ⟨spelling, a, c, found, argsRendered, filterRendered, rfl⟩ := aggregate_eq_ok.mp whole
  have called := Sql.Reaches.behind (fits.aggregate_leads found)
    (aggregateArguments_reaches ha a argsRendered) (by decide)
  exact (called.const ")" [.ended] (by decide)).append (filterClause_reaches hc c filterRendered)
    (by decide)

theorem concatCall_operand {style : ConcatStyle} {distinct : Bool} {arg : Sql}
    {order : Option Sql} {α : Type} {good : α → Prop} {keys : Option α} {separator : Option String}
    (h : arg.IsOperand v P) (ho : Option.Rel (fun k => IsKeys v (good k)) keys order) :
    (concatCall style distinct arg order separator).IsOperand v (P ∧ ∀ k ∈ keys, good k) := by
  have value (call : String) (opens : leadsAlways Gap.beginnings call [.opened]) :
      (raw call ++ ((if distinct then raw "DISTINCT " else []) ++ arg)).Reaches v Gap.beginnings
        [.ended] P := by
    refine .lead _ opens (?_ : Sql.Reaches v [.opened] [.ended] P _) (by decide)
    split
    · exact .lead [.needed] (by decide) h (by decide)
    · exact h.weaken (by decide) (List.Subset.refl _)
  have text (s : String) : Sql.Reaches v [.needed] [.ended] True [.text s] :=
    .ofString s (by decide)
  have given : Option.Rel (fun (_ : String) (t : Sql) => t.Reaches v [.needed] [.ended] True)
      separator (separator.map fun s => [.text s]) := by
    cases separator with
    | none => exact .none
    | some s => exact .some (text s)
  have needed : Sql.Reaches v [.needed] [.ended] True
      ((separator.map fun s => ([.text s] : Sql)).getD [.text ","]) := by
    cases separator with
    | none => exact text ","
    | some s => exact text s
  have separatedBy (call : String) (opens : leadsAlways Gap.beginnings call [.opened]) :=
    ((value call opens).const ", " [.needed] (by decide)).append needed (by decide)
  cases style with
  | groupConcat =>
    have ordered := (value "GROUP_CONCAT(" (by decide)).clause " " [.ended] (by decide) ho
      (by decide)
    have separated := ordered.clause " SEPARATOR " [.needed] (by decide) given (by decide)
    exact (separated.const ")" [.ended] (by decide)).congr (by simp)
  | groupConcatArgument =>
    have kept : Option.Rel (fun (_ : String) (t : Sql) => t.Reaches v [.needed] [.ended] True)
        (if distinct then none else separator)
        (if distinct then none else separator.map fun s => [.text s]) := by
      split
      · exact .none
      · exact given
    have separated := (value "GROUP_CONCAT(" (by decide)).clause ", " [.needed] (by decide) kept
      (by decide)
    have ordered := separated.clause " " [.ended] (by decide) ho (by decide)
    exact (ordered.const ")" [.ended] (by decide)).congr (by simp)
  | stringAgg =>
    have separated := (value "STRING_AGG(" (by decide)).clause ", " [.needed] (by decide) given
      (by decide)
    have ordered := separated.clause " " [.ended] (by decide) ho (by decide)
    exact (ordered.const ")" [.ended] (by decide)).congr (by simp)
  | stringAggSeparator =>
    have separated := separatedBy "STRING_AGG(" (by decide)
    have ordered := separated.clause " " [.ended] (by decide) ho (by decide)
    exact (ordered.const ")" [.ended] (by decide)).congr (by simp)
  | stringAggWithin =>
    have separated := separatedBy "STRING_AGG(" (by decide)
    have closed := separated.const ")" [.ended] (by decide)
    cases ho with
    | none => exact (closed.append .nil (by decide)).congr (by simp)
    | @some k t sorted =>
      have within : (raw " WITHIN GROUP (" ++ t).Reaches v [.ended] [.ended] (good k) :=
        .lead [.opened] (by decide) sorted (by decide)
      exact (closed.append (within.const ")" [.ended] (by decide)) (by decide)).congr (by simp)
  | listagg since =>
    have separated := separatedBy "LISTAGG(" (by decide)
    have opened := separated.const ") WITHIN GROUP (" [.opened] (by decide)
    have sorted : (order.getD (raw "ORDER BY NULL")).Reaches v [.opened] [.ended]
        (∀ k ∈ keys, good k) := by
      cases ho with
      | none => exact (Sql.Reaches.ofConst [.ended] (by decide)).congr (by simp)
      | some sorted => exact (sorted.weaken (by decide) (List.Subset.refl _)).congr (by simp)
    exact ((opened.append sorted (by decide)).const ")" [.ended] (by decide)).congr (by simp)

theorem groupConcat_operand {arg : Result Sql} (distinct : Bool) (separator : Option String)
    {keys : Option (List (SortKey Node))} {f : List (SortKey Node) → Result Sql}
    {good : List (SortKey Node) → Prop} (h : Operand v P arg)
    (ho : ∀ k ∈ keys, Keys v (good k) (f k)) :
    Operand v (P ∧ ∀ k ∈ keys, good k) (groupConcat d arg distinct (keys.map f) separator) := by
  intro s whole
  obtain ⟨-, a, o, argRendered, orderRendered, rfl⟩ := groupConcat_eq_ok.mp whole
  exact concatCall_operand (h a argRendered) (Ensures.given ho orderRendered)

theorem windowList_reaches (name : String) {args : List Node} {parts : List Sql}
    (each : List.Forall₂ (fun x t => t.IsOperand v (ok x)) args parts) :
    (windowList name parts).Reaches v [.called] [.called, .ended] (∀ x ∈ args, ok x) := by
  unfold windowList
  split
  · rename_i empty
    rw [Bool.and_eq_true, List.isEmpty_iff] at empty
    obtain rfl := empty.1
    obtain rfl := List.forall₂_nil_right_iff.mp each
    exact (Sql.Reaches.ofConst _ (by decide)).congr (by simp)
  · exact .list ", " (by decide) each (by decide)

theorem windowParts_reaches {partition : List Node} {parts : List Sql} {order : Option Sql}
    {keys : Option (List (SortKey Node))} {good : List (SortKey Node) → Prop}
    {bounds : Option Frame}
    (hp : List.Forall₂ (fun x t => t.IsOperand v (ok x)) partition parts)
    (ho : Option.Rel (fun k => IsKeys v (good k)) keys order)
    (hf : ∀ f ∈ bounds, Build.checkFrame f = .ok ()) :
    (joinWith " " (windowParts parts order bounds)).Reaches v [.called] [.called, .ended]
      ((∀ x ∈ partition, ok x) ∧ ∀ k ∈ keys, good k) := by
  let part (filled : Prop) (t : Sql) : Prop := t.Reaches v [.called, .ended] [.ended] filled
  obtain ⟨ps, first, partitioned⟩ : ∃ ps, List.Forall₂ part ps
      (if parts.isEmpty then [] else [raw "PARTITION BY " ++ joinWith ", " parts]) ∧
      ((∀ q ∈ ps, q) ↔ ∀ x ∈ partition, ok x) := by
    cases hp with
    | nil => exact ⟨[], .nil, by simp⟩
    | @cons x t partition parts one rest =>
      have list := Sql.Reaches.commas (by simp) (.cons one rest)
      exact ⟨[_], .cons (.lead [.needed] (by decide) list (by decide)) .nil,
        List.forall_mem_singleton⟩
  obtain ⟨os, second, ordered⟩ : ∃ os, List.Forall₂ part os order.toList ∧
      ((∀ q ∈ os, q) ↔ ∀ k ∈ keys, good k) := by
    cases ho with
    | none => exact ⟨[], .nil, by simp⟩
    | some sorted =>
      refine ⟨[_], .cons (sorted.weaken (by decide) (List.Subset.refl _)) .nil, ?_⟩
      rw [List.forall_mem_singleton]
      simp
  obtain ⟨fs, third, framed⟩ : ∃ fs, List.Forall₂ part fs
      (bounds.map fun f => raw (frame f)).toList ∧ ∀ q ∈ fs, q := by
    cases bounds with
    | none => exact ⟨[], .nil, by simp⟩
    | some f => exact ⟨[_], .cons (.ofText (frame_leads (hf f rfl))) .nil, by simp⟩
  have list : (joinWith " " (windowParts parts order bounds)).Reaches v [.called]
      [.called, .ended] (∀ q ∈ ps ++ os ++ fs, q) :=
    .list " " (by decide) (List.rel_append (List.rel_append first second) third) (by decide)
  refine list.congr ?_
  simp only [List.mem_append, or_imp, forall_and, partitioned, ordered]
  exact and_iff_left framed

theorem window_operand (fits : d.Fits) (name : String) {args partition : List Node}
    {keys : Option (List (SortKey Node))} {bounds : Option Frame} {f : Node → Result Sql}
    {g : List (SortKey Node) → Result Sql} {good : List (SortKey Node) → Prop}
    (ha : ∀ x ∈ args, Operand d.profile.vocabulary (ok x) (f x))
    (hp : ∀ x ∈ partition, Operand d.profile.vocabulary (ok x) (f x))
    (ho : ∀ k ∈ keys, Keys d.profile.vocabulary (good k) (g k))
    (hf : ∀ f ∈ bounds, Build.checkFrame f = .ok ()) :
    Operand d.profile.vocabulary
      ((∀ x ∈ args, ok x) ∧ (∀ x ∈ partition, ok x) ∧ ∀ k ∈ keys, good k)
      (window d name (args.map f) (partition.map f) (keys.map g) bounds) := by
  intro s whole
  obtain ⟨-, spelling, l, p, o, found, argsRendered, partitionRendered, orderRendered, rfl⟩ :=
    window_eq_ok.mp whole
  have called := Sql.Reaches.behind (fits.window_leads found)
    (windowList_reaches name (Ensures.each ha argsRendered)) (by decide)
  have opened := called.const ") OVER (" [.called] (by decide)
  have parts := windowParts_reaches (Ensures.each hp partitionRendered)
    (Ensures.given ho orderRendered) hf
  exact (opened.append parts (by decide)).const ")" [.ended] (by decide)

/-! ## Clauses -/

theorem selectItem_operand (aliasName : String) {expr : Result Sql} (h : Operand v P expr) :
    Operand v P (selectItem aliasName expr) := by
  intro s whole
  obtain ⟨e, rendered, rfl⟩ := selectItem_eq_ok.mp whole
  split
  · exact h e rendered
  · exact ((h e rendered).const " AS " [.needed] (by decide)).name aliasName (by decide)

theorem selectList_reaches {star : Bool} {α : Type} {items : List α} {good : α → Prop}
    {f : α → Result Sql} (listed : star → items = [])
    (h : ∀ x ∈ items, Operand v (good x) (f x)) :
    Ensures (Sql.Reaches v [.projection] [.ended] (∀ x ∈ items, good x))
      (selectList d star (items.map f)) := by
  intro s whole
  have forms := selectList_eq_ok.mp whole
  split at forms
  · rename_i all
    subst forms
    obtain rfl := listed all
    exact (Sql.Reaches.ofConst _ (by decide)).congr (by simp)
  · obtain ⟨parts, rendered, rfl⟩ := forms
    cases Ensures.each h rendered with
    | nil =>
      have value : (raw (anyValue d)).Reaches v [.projection] [.ended] True := by
        unfold anyValue
        split
        · exact .ofConst _ (by decide)
        · exact .ofConst _ (by decide)
      exact value.congr (by simp)
    | cons first rest =>
      have list := Sql.Reaches.commas (by simp) (.cons first rest)
      exact list.weaken (by decide) (List.Subset.refl _)

theorem join_operand {type : JoinType} {left right condition : Result Sql} {rightKind : Kind}
    (hl : Operand v P left) (hr : Operand v Q right) (hc : Operand v R condition) :
    Operand v ((P ∧ Q) ∧ R) (join d type left rightKind right condition) := by
  intro s whole
  obtain ⟨keyword, l, r, c, found, leftRendered, rightRendered, conditionRendered, rfl⟩ :=
    join_eq_ok.mp whole
  have item : (if rightKind = .join then parens r else r).IsOperand v Q := by
    split
    · exact (hr r rightRendered).parens (by decide)
    · exact hr r rightRendered
  have keywords : ∀ keyword ∈ ["INNER JOIN", "LEFT OUTER JOIN", "RIGHT OUTER JOIN",
      "FULL OUTER JOIN"], leadsAlways [.ended] (" " ++ keyword ++ " ") [.needed] := by decide
  have left := (hl l leftRendered).const _ _ (keywords keyword (joinKeyword_eq_ok found))
  have joined := (left.append item (by decide)).const " ON " [.needed] (by decide)
  exact joined.append (hc c conditionRendered) (by decide)

theorem subSelect_operand {statement : Result Sql} {aliasName : String}
    (h : Ensures (Sql.Reaches v [.free, .opened] [.ended] P) statement) :
    Operand v P (subSelect d statement aliasName) := by
  intro s whole
  obtain ⟨-, t, rendered, rfl⟩ := subSelect_eq_ok.mp whole
  exact (((h t rendered).parens (by decide)).append (tableAlias_reaches d aliasName)
    (by decide)).congr
    (by simp)

theorem sortKey_operand (ascending nullsLast : Bool) {expr : Result Sql} (h : Operand v P expr) :
    Operand v P (sortKey d ascending nullsLast expr) := by
  intro s whole
  obtain ⟨e, rendered, rfl⟩ := sortKey_eq_ok.mp whole
  have texts : ∀ text ∈ directions, leadsAlways [.ended] text [.ended] := by decide
  exact (h e rendered).const _ _ (texts _ (direction_mem d ascending nullsLast))

theorem orderBy_keys {α : Type} {keys : List α} {good : α → Prop} {f : α → Result Sql}
    (nonempty : keys ≠ []) (h : ∀ k ∈ keys, Operand v (good k) (f k)) :
    Keys v (∀ k ∈ keys, good k) (orderBy (keys.map f)) := by
  intro s whole
  obtain ⟨parts, rendered, rfl⟩ := orderBy_eq_ok.mp whole
  exact .lead [.needed] (by decide) (.commas nonempty (Ensures.each h rendered)) (by decide)

theorem groupBy_keys {exprs : List Node} {f : Node → Result Sql} (nonempty : exprs ≠ [])
    (h : ∀ x ∈ exprs, Operand v (ok x) (f x)) :
    Keys v (∀ x ∈ exprs, ok x) (groupBy (exprs.map f)) := by
  intro s whole
  obtain ⟨parts, rendered, rfl⟩ := groupBy_eq_ok.mp whole
  exact .lead [.needed] (by decide) (.commas nonempty (Ensures.each h rendered)) (by decide)

theorem fromClause_reaches (dummy : d.profile.dummyTable = "" ∨
    leadsAlways [.needed] d.profile.dummyTable [.ended]) {starts : List Gap} {s : Sql}
    (h : s.Reaches v starts [.ended] P) {source : Option Node} {t : Option Sql}
    (hs : Option.Rel (fun x t => t.IsOperand v (ok x)) source t) :
    (s ++ fromClause d t).Reaches v starts [.ended] (P ∧ ∀ x ∈ source, ok x) := by
  unfold fromClause
  cases hs with
  | none =>
    rcases dummy with none | table
    · simpa [none] using h
    · have text : v.leads [.ended] (" FROM " ++ d.profile.dummyTable) [.ended] :=
        Vocabulary.leads_const_append [.needed] (by decide) (Vocabulary.leads_of_always table)
          (by decide) (by decide)
      dsimp only
      split
      · simpa using h
      · exact (h.text text).congr (by simp)
  | @some x t item =>
    have from' : (raw " FROM " ++ t).Reaches v [.ended] [.ended] (ok x) :=
      .lead [.needed] (by decide) item (by decide)
    exact (h.append from' (by decide)).congr (by simp)

/-- The text is a row limit where the dialect has them. -/
abbrev IsLimit (d : Dialect) (v : Vocabulary) (s : Sql) : Prop :=
  s.Reaches v [limitGap d.profile.limitStyle] [limitGap d.profile.limitStyle] True

theorem limitOnTop_reaches {limit : Option Sql} (h : ∀ n ∈ limit, IsLimit d v n) :
    (raw "SELECT " ++ limitOnTop d limit).Reaches v [.free, .opened] [.projection] True := by
  have keyword : (raw "SELECT ").Reaches v [.free, .opened] [.projection] True :=
    .ofConst _ (by decide)
  unfold limitOnTop
  split
  · rename_i top
    simp only [IsLimit, limitGap, if_pos top] at h
    cases limit with
    | none => simpa using keyword
    | some n =>
      have limited := (h n rfl).const " " [.projection] (by decide)
      exact (keyword.append limited (by decide)).congr (by simp)
  · simpa using keyword

theorem limitAtEnd_reaches {starts : List Gap} {s : Sql} (hs : s.Reaches v starts [.ended] P)
    {limit : Option Sql} (h : ∀ n ∈ limit, IsLimit d v n) :
    (s ++ limitAtEnd d limit).Reaches v starts [.ended] P := by
  unfold limitAtEnd
  split
  · simpa using hs
  · rename_i other
    simp only [IsLimit, limitGap, if_neg other] at h
    cases limit with
    | none => simpa [clause] using hs
    | some n =>
      have limited : (raw " " ++ n).Reaches v [.ended] [.ended] True :=
        .lead [.ended] (by decide) (h n rfl) (by decide)
      exact (hs.append limited (by decide)).congr (by simp)

theorem select_reaches (dummy : d.profile.dummyTable = "" ∨
    leadsAlways [.needed] d.profile.dummyTable [.ended]) {limit : Option (Result Sql)}
    {list : Result Sql} {source filter having : Option Node} {grouping : Option (List Node)}
    {order : Option (List (SortKey Node))} {f g : Node → Result Sql}
    {fg : List Node → Result Sql} {fo : List (SortKey Node) → Result Sql}
    {exprs : List Node → Prop} {keys : List (SortKey Node) → Prop}
    (hn : ∀ r ∈ limit, Ensures (IsLimit d v) r)
    (hl : Ensures (Sql.Reaches v [.projection] [.ended] P) list)
    (hs : ∀ x ∈ source, Operand v (ok x) (f x)) (hw : ∀ x ∈ filter, Operand v (ok x) (g x))
    (hg : ∀ x ∈ grouping, Keys v (exprs x) (fg x)) (hh : ∀ x ∈ having, Operand v (ok x) (g x))
    (ho : ∀ x ∈ order, Keys v (keys x) (fo x)) :
    Ensures (Sql.Reaches v [.free, .opened] [.ended] (((((P ∧ ∀ x ∈ source, ok x) ∧
        ∀ x ∈ filter, ok x) ∧ ∀ x ∈ grouping, exprs x) ∧ ∀ x ∈ having, ok x) ∧
        ∀ x ∈ order, keys x))
      (select d limit list (source.map f) (filter.map g) (grouping.map fg) (having.map g)
        (order.map fo)) := by
  intro s whole
  obtain ⟨n, l, t, w, e, h, o, limitRendered, listRendered, sourceRendered, filterRendered,
    groupingRendered, havingRendered, orderRendered, rfl⟩ := select_eq_ok.mp whole
  have limits := Ensures.part hn limitRendered
  have listed := ((limitOnTop_reaches limits).append (hl l listRendered) (by decide)).congr
    (by rw [true_and])
  have sourced := fromClause_reaches dummy listed (Ensures.given hs sourceRendered)
  have filtered := sourced.clause " WHERE " [.needed] (by decide)
    (Ensures.given hw filterRendered) (by decide)
  have grouped := filtered.clause " " [.ended] (by decide)
    (Ensures.given hg groupingRendered) (by decide)
  have kept := grouped.clause " HAVING " [.needed] (by decide)
    (Ensures.given hh havingRendered) (by decide)
  have ordered := kept.clause " " [.ended] (by decide) (Ensures.given ho orderRendered)
    (by decide)
  exact limitAtEnd_reaches ordered limits

/-! ## The tree -/

end

section

variable {d : Dialect} {ctx : Context} {n : Node}

/-- Whatever is rendered for the node stands where nodes of its kind do. -/
abbrev Spans (d : Dialect) (n : Node) (r : Result Sql) : Prop :=
  Ensures (Sql.Reaches d.profile.vocabulary (n.kind.starts d) (n.kind.stops d) (n.HasOperands d)) r

theorem Spans.operand {r : Result Sql} (h : Spans d n r) (kind : n.isExpression ∨ n.isFromItem) :
    Operand d.profile.vocabulary (n.HasOperands d) r := by
  cases n <;>
    simp_all [Node.isExpression, Node.isFromItem, Node.kind, Kind.isExpression, Spans,
      Kind.starts, Kind.stops]

/-- A node spans its place if its children do. -/
theorem node_spans_step (fits : d.Fits) (lossless : d.Lossless) (simple : d.has .simpleCase)
    (rules : n.KeepsRules) (placed : n.Placed)
    (below : ∀ c ∈ n.children, Spans d c (node d ctx c)) : Spans d n (node d ctx n) := by
  have unmarked := lossless.unmarked
  have operand : ∀ c ∈ n.operands,
      Operand d.profile.vocabulary (c.HasOperands d) (asOperand d c (node d ctx c)) := by
    intro c member
    have expression := placed c member
    exact asOperand_operand expression
      ((below c (Node.mem_children_of_mem_operands member)).operand (.inl expression))
  have condition : ∀ c ∈ n.operands,
      Operand d.profile.vocabulary (c.HasOperands d) (asPredicate d c (node d ctx c)) := by
    intro c member
    exact asPredicate_operand Node.hasOperands_of_literal
      ((below c (Node.mem_children_of_mem_operands member)).operand (.inl (placed c member)))
  clear placed
  unfold Spans
  rw [Node.hasOperands_iff]
  cases n with
  | select s =>
    rw [node_select unmarked]
    have limited (l : Limit) : (Node.limit l).HasOperands d := by
      rw [Node.hasOperands_iff]
      simp [Node.LacksOperands, Node.children]
    have limits : ∀ r ∈ s.limit.map fun l => node d ctx (.limit l),
        Ensures (IsLimit d d.profile.vocabulary) r := by
      rw [Option.forall_mem_map]
      intro l given
      exact (below (.limit l) (by simp [Node.children, Option.mem_def.mp given])).same
        (iff_true_intro (limited l))
    have sources : ∀ x ∈ s.source,
        Operand d.profile.vocabulary (x.HasOperands d) (node d ctx x) := fun x given =>
      (below x (by simp [Node.children, Option.mem_def.mp given])).operand
        (.inr (rules.source x given))
    have statement := select_reaches fits.dummyTable limits
      (below (.selectList s.list) (by simp [Node.children])) sources
      (fun x (given : x ∈ s.filter) =>
        condition x (by simp [Node.operands, Option.mem_def.mp given]))
      (fun x (given : x ∈ s.grouping) =>
        below (.groupBy x) (by simp [Node.children, Option.mem_def.mp given]))
      (fun x (given : x ∈ s.having) =>
        condition x (by simp [Node.operands, Option.mem_def.mp given]))
      (fun x (given : x ∈ s.order) =>
        below (.orderBy x) (by simp [Node.children, Option.mem_def.mp given]))
    refine statement.same ?_
    simp only [Node.children, Node.LacksOperands]
    simp [or_imp, forall_and, limited, and_assoc]
  | selectList l =>
    rw [node_selectList unmarked]
    have list := selectList_reaches (d := d) rules fun item member =>
      selectItem_operand item.aliasName (operand _ (List.mem_map_of_mem member))
    exact list.same (by simp [Node.children, Node.LacksOperands])
  | table t =>
    rw [node_table unmarked]
    rintro _ ⟨⟩
    exact (table_operand d ctx t).congr (by simp [Node.children, Node.LacksOperands])
  | join type left right c =>
    rw [node_join unmarked]
    have item : ∀ x ∈ [left, right],
        Operand d.profile.vocabulary (x.HasOperands d) (node d ctx x) := by
      intro x member
      rcases List.mem_pair.mp member with rfl | rfl
      · exact (below x (by simp [Node.children])).operand (.inr rules.2.1)
      · exact (below x (by simp [Node.children])).operand (.inr rules.2.2.1)
    refine Ensures.same (join_operand (item left (by simp)) (item right (by simp))
      (condition c (by simp [Node.operands]))) ?_
    simp [Node.children, Node.LacksOperands, and_assoc]
  | subSelect s aliasName =>
    rw [node_subSelect unmarked]
    exact (subSelect_operand (below _ (by simp [Node.children]))).same
      (by simp [Node.children, Node.LacksOperands])
  | column c =>
    rw [node_column unmarked]
    rintro _ ⟨⟩
    exact (column_operand d ctx c).congr (by simp [Node.children, Node.LacksOperands])
  | literal l =>
    rw [node_literal unmarked]
    exact (literal_operand fits.dates fits.timestamps rules).same
      (by simp [Node.children, Node.LacksOperands])
  | and operands =>
    rw [node_and unmarked]
    exact (connective_operand (by decide) rules condition).same
      (by simp [Node.children, Node.LacksOperands])
  | or operands =>
    rw [node_or unmarked]
    exact (connective_operand (by decide) rules condition).same
      (by simp [Node.children, Node.LacksOperands])
  | not c =>
    rw [node_not unmarked]
    exact (not_operand (condition _ (by simp [Node.operands, Node.children]))).same
      (by simp [Node.children, Node.LacksOperands])
  | comparison op left right =>
    rw [node_comparison unmarked]
    have compared := comparison_operand rules
      (operand left (by simp [Node.operands, Node.children]))
      (operand right (by simp [Node.operands, Node.children]))
    exact compared.same (by simp [Node.children, Node.LacksOperands])
  | like expr pattern escape =>
    rw [node_like unmarked]
    have matched := like_operand (operand expr (by simp [Node.operands, Node.children]))
      (operand pattern (by simp [Node.operands, Node.children]))
      (fun x (given : x ∈ escape) =>
        operand x (by simp [Node.operands, Node.children, Option.mem_def.mp given]))
    exact matched.same (by simp [Node.children, Node.LacksOperands, and_assoc])
  | regexpLike expr pattern =>
    rw [node_regexpLike unmarked]
    exact (regexpLike_operand fits lossless operand).same
      (by simp [Node.children, Node.LacksOperands])
  | between expr low high =>
    rw [node_between unmarked]
    have between := between_operand (operand expr (by simp [Node.operands, Node.children]))
      (operand low (by simp [Node.operands, Node.children]))
      (operand high (by simp [Node.operands, Node.children]))
    exact between.same (by simp [Node.children, Node.LacksOperands, and_assoc])
  | inList expr values =>
    rw [node_inList unmarked]
    have listed := inList_operand rules (operand expr (by simp [Node.operands, Node.children]))
      (fun x (member : x ∈ values) => operand x (by simp [Node.operands, Node.children, member]))
    exact listed.same (by simp [Node.children, Node.LacksOperands])
  | inSubquery expr s =>
    rw [node_inSubquery unmarked]
    have selected := inSubquery_operand (d := d) (operand expr (by simp [Node.operands]))
      (below (.select s) (by simp [Node.children]))
    exact selected.same (by simp [Node.children, Node.LacksOperands])
  | isNull expr =>
    rw [node_isNull unmarked]
    exact (isNull_operand (operand _ (by simp [Node.operands, Node.children]))).same
      (by simp [Node.children, Node.LacksOperands])
  | isNotNull expr =>
    rw [node_isNotNull unmarked]
    exact (isNotNull_operand (operand _ (by simp [Node.operands, Node.children]))).same
      (by simp [Node.children, Node.LacksOperands])
  | function name args =>
    rw [node_function unmarked]
    have each : ∀ x ∈ args, Operand d.profile.vocabulary (x.HasOperands d)
        (asOperand d x (node d ctx x)) := operand
    exact function_operand fits lossless name each
  | extract part arg =>
    rw [node_extract unmarked]
    exact (extract_operand rules (operand _ (by simp [Node.operands, Node.children]))).same
      (by simp [Node.children, Node.LacksOperands])
  | cast arg type =>
    rw [node_cast unmarked]
    exact (cast_operand fits.types (operand _ (by simp [Node.operands, Node.children]))).same
      (by simp [Node.children, Node.LacksOperands])
  | case basis branches otherwise =>
    rw [node_case unmarked]
    have branch : ∀ b ∈ branches,
        Operand d.profile.vocabulary (b.condition.HasOperands d)
          (asCondition d basis.isSome b.condition (node d ctx b.condition)) ∧
        Operand d.profile.vocabulary (b.result.HasOperands d)
          (asOperand d b.result (node d ctx b.result)) := by
      intro b member
      have inside : b.condition ∈ (Node.case basis branches otherwise).operands :=
        Node.condition_mem_children member
      refine ⟨?_, operand _ (Node.result_mem_children member)⟩
      unfold asCondition
      split
      · exact operand _ inside
      · exact condition _ inside
    have chosen := case_operand (g := fun c => asCondition d basis.isSome c (node d ctx c)) simple
      rules
      (fun x (given : x ∈ basis) =>
        operand x (by simp [Node.operands, Node.children, Option.mem_def.mp given]))
      branch
      (fun x (given : x ∈ otherwise) =>
        operand x (by simp [Node.operands, Node.children, Option.mem_def.mp given]))
    refine chosen.same ?_
    simp only [Node.children, Node.LacksOperands, List.forall_mem_append, List.forall_mem_flatMap]
    simp
  | aggregate name distinct args filter =>
    rw [node_aggregate unmarked]
    have aggregated := aggregate_operand fits name distinct
      (fun x (member : x ∈ args) => operand x (by simp [Node.operands, Node.children, member]))
      (fun x (given : x ∈ filter) =>
        condition x (by simp [Node.operands, Node.children, Option.mem_def.mp given]))
    refine aggregated.same ?_
    simp only [Node.children, Node.LacksOperands]
    simp [or_imp, forall_and]
  | groupConcat arg distinct order separator =>
    rw [node_groupConcat unmarked]
    have joined := groupConcat_operand (d := d) distinct separator
      (operand arg (by simp [Node.operands]))
      (fun x (given : x ∈ order) =>
        below (.orderBy x) (by simp [Node.children, Option.mem_def.mp given]))
    exact joined.same (by simp [Node.children, Node.LacksOperands])
  | window name args partition order frame =>
    rw [node_window unmarked]
    have windowed := window_operand fits name
      (fun x (member : x ∈ args) => operand x (by simp [Node.operands, member]))
      (fun x (member : x ∈ partition) => operand x (by simp [Node.operands, member]))
      (fun x (given : x ∈ order) =>
        below (.orderBy x) (by simp [Node.children, Option.mem_def.mp given]))
      (fun f (given : f ∈ frame) => (rules.2.2 f given).2)
    refine windowed.same ?_
    simp only [Node.children, Node.LacksOperands]
    simp [or_imp, forall_and]
  | groupBy exprs =>
    rw [node_groupBy unmarked]
    exact (groupBy_keys rules operand).same (by simp [Node.children, Node.LacksOperands])
  | orderBy keys =>
    rw [node_orderBy unmarked]
    have sorted := orderBy_keys rules fun key member =>
      sortKey_operand (d := d) key.ascending key.nullsLast
        (operand _ (List.mem_map_of_mem member))
    exact sorted.same (by simp [Node.children, Node.LacksOperands])
  | limit l =>
    rw [node_limit unmarked]
    intro s rendered
    rw [limit_eq_ok rendered]
    exact (Sql.Reaches.ofText (limitText_leads rules.1 d.profile.limitStyle)).congr
      (by simp [Node.children, Node.LacksOperands])

/-- Every node of a request spans its place. -/
theorem node_spans (fits : d.Fits) (lossless : d.Lossless) (simple : d.has .simpleCase)
    (placed : n.WellPlaced) : Spans d n (node d ctx n) := by
  induction n using Node.induction with
  | step n ih =>
    obtain ⟨⟨rules, operands⟩, below⟩ := Node.wellPlaced_iff.mp placed
    exact node_spans_step fits lossless simple rules operands fun c child =>
      ih c child (below c child)

end

end Render

/-! ## Statements of requests -/

/-- The tokens are the same, or one is a name and the other the same name between quotes. -/
def Token.SameName (t u : Token) : Prop := t = u ∨ ∃ name, t = .word name ∧ u = .quoted name

/-- Quoting all names changes nothing but their tokens. -/
theorem Sql.tokens_sameName (p : Profile) (quoteNames : Bool) (s : Sql) :
    List.Forall₂ Token.SameName (s.tokens p quoteNames) (s.tokens p true) := by
  induction s with
  | nil => exact .nil
  | cons f s ih =>
    rw [tokens_cons, tokens_cons]
    refine List.rel_append ?_ ih
    cases f with
    | raw text => exact List.forall₂_same.mpr fun _ _ => .inl rfl
    | text a => exact .cons (.inl rfl) .nil
    | name a =>
      simp only [Fragment.tokens, Bool.true_or, if_true]
      split
      · exact .cons (.inl rfl) .nil
      · exact .cons (.inr ⟨a, rfl, rfl⟩) .nil

example : Sql.tokens {} false [.name "A"] = [.word "A"] ∧
    Sql.tokens {} true [.name "A"] = [.quoted "A"] := by
  decide +kernel

namespace Builtin

/-- The only operator that can lack its operands joins texts. -/
theorem lacksOperands_iff (b : Builtin) (notes : Notes) {n : Node} :
    n.LacksOperands (b.build notes) ↔ n = .function "CONCAT" [] ∧ b.joinsTexts := by
  cases n with
  | function name args =>
    rw [Node.LacksOperands, b.variadic_iff]
    simp only [Node.function.injEq]
    constructor
    · rintro ⟨none, same, joins⟩
      exact ⟨⟨same, none⟩, joins⟩
    · rintro ⟨⟨same, none⟩, joins⟩
      exact ⟨none, same, joins⟩
  | _ => simp [Node.LacksOperands]

/-- In the statement of every request and every built-in dialect, each token has the operands that
it needs, and every operator stands between two operands. Empty parentheses stand only behind the
name of a function or behind `OVER`, unless texts are joined by an operator and there are none to
join. -/
theorem operands_complete (b : Builtin) (notes : Notes) (ctx : Context) {text : String}
    {r : PushdownRequest} (read : Request.readPushdown text = .ok r) {sql : String}
    (generated : (b.build notes).generate ctx (r.statement.map .select) = .ok sql) :
    let p := (b.build notes).profile
    ∃ s fragments, r.statement = some s ∧
      Render.node (b.build notes) ctx (.select s) = .ok fragments ∧
      fragments.write p ctx.quoteNames = sql ∧
      ((b = .generic → notes.NamesMark) →
        Lexer.scan p sql.toList = some (fragments.tokens p ctx.quoteNames)) ∧
      List.Forall₂ Token.SameName (fragments.tokens p ctx.quoteNames) (fragments.tokens p true) ∧
      p.vocabulary.Complete (fragments.tokens p true) ∧
      p.vocabulary.Flanked (fragments.tokens p true) ∧
      (p.vocabulary.Filled (fragments.tokens p true) ↔
        (b.joinsTexts → .function "CONCAT" [] ∉ (Node.select s).nodes)) := by
  intro p
  obtain ⟨s, stated, placed⟩ := Request.readPushdown_wellPlaced read
  rw [stated] at generated
  have scanned (mark : b = .generic → notes.NamesMark) :=
    (b.readable notes mark).generate_phrase placed.wellFormed generated
  simp only [Option.map_some, Dialect.generate, bind_eq_ok, pure_eq_ok] at generated
  obtain ⟨fragments, rendered, written⟩ := generated
  have spans := Render.node_spans (b.fits notes) (b.lossless notes) (b.has_simpleCase notes) placed
    fragments rendered
  have start : Gap.free ∈ (Node.select s).kind.starts (b.build notes) := List.mem_cons_self ..
  have complete : p.vocabulary.Complete (fragments.tokens p true) := by
    have stop := spans.arrives _ start
    rw [Vocabulary.complete_iff, Sql.map_role_tokens]
    refine ⟨spans.admitted _ start, ?_⟩
    rw [List.mem_singleton.mp stop]
    rfl
  refine ⟨s, fragments, stated, rendered, written, ?_, Sql.tokens_sameName .., complete,
    complete.flanked, ?_⟩
  · intro mark
    obtain ⟨fragments', rendered', written', phrase⟩ := scanned mark
    obtain rfl : fragments' = fragments := Except.ok.inj (rendered'.symm.trans rendered)
    rw [← written]
    exact phrase.scanned
  · rw [← Vocabulary.filled_iff, Sql.map_role_tokens, spans.fills _ start]
    simp only [Node.HasOperands, Node.Everywhere, b.lacksOperands_iff notes]
    constructor
    · intro all joins member
      exact all _ member ⟨rfl, joins⟩
    · rintro none m member ⟨rfl, joins⟩
      exact none joins member

set_option maxRecDepth 10000 in
theorem operands_complete_joined :
    let text := "\x7b\"type\":\"pushdown\",\"pushdownRequest\":\x7b\"type\":\"select\",
      \"selectList\":[\x7b\"type\":\"function_scalar\",\"name\":\"CONCAT\",\"arguments\":[
        \x7b\"type\":\"literal_string\",\"value\":\"a\"\x7d,
        \x7b\"type\":\"literal_string\",\"value\":\"()\"\x7d]\x7d]\x7d\x7d"
    let d := postgreSql.build {}
    let sql := "SELECT ('a' || '()')"
    ∃ r ts, Request.readPushdown text = .ok r ∧
      d.generate { quoteNames := true } (r.statement.map .select) = .ok sql ∧
      Lexer.scan d.profile sql.toList = some ts ∧ d.profile.vocabulary.Complete ts ∧
      d.profile.vocabulary.Flanked ts := by
  intro text d sql
  have same : text = String.ofList _ := rfl
  have shown : (Request.readPushdown text).toOption.map (fun r =>
      (d.generate { quoteNames := true } (r.statement.map .select)).toOption) =
        some (some sql) := by
    rw [same, Request.readPushdown, Request.read, Object.readDocument_ofList]
    decide +kernel
  obtain ⟨r, accepted, written⟩ := Request.exists_of_toOption shown
  have generated := toOption_eq_some.mp written
  obtain ⟨s, fragments, -, -, -, scanned, -, complete, flanked, -⟩ :=
    operands_complete .postgreSql {} { quoteNames := true } accepted generated
  exact ⟨r, _, accepted, generated, scanned (by simp), complete, flanked⟩

set_option maxRecDepth 10000 in
/-- Joining no texts at all leaves parentheses with nothing inside. -/
theorem empty_concat_leaves_parentheses :
    let text := "\x7b\"type\":\"pushdown\",\"pushdownRequest\":\x7b\"type\":\"select\",
      \"selectList\":[\x7b\"type\":\"function_scalar\",\"name\":\"CONCAT\"\x7d]\x7d\x7d"
    let d := postgreSql.build {}
    let ts : List Token := [.word "SELECT", .symbol '(', .symbol ')']
    ∃ r, Request.readPushdown text = .ok r ∧
      d.generate {} (r.statement.map .select) = .ok "SELECT ()" ∧
      Lexer.scan d.profile "SELECT ()".toList = some ts ∧ ¬ d.profile.vocabulary.Filled ts := by
  intro text d ts
  have same : text = String.ofList _ := rfl
  have shown : (Request.readPushdown text).toOption.map (fun r =>
      (d.generate {} (r.statement.map .select)).toOption) = some (some "SELECT ()") := by
    rw [same, Request.readPushdown, Request.read, Object.readDocument_ofList]
    decide +kernel
  obtain ⟨r, accepted, written⟩ := Request.exists_of_toOption shown
  refine ⟨r, accepted, toOption_eq_some.mp written, by decide +kernel, ?_⟩
  intro filled
  obtain ⟨before, t, front, call⟩ := filled [.word "SELECT"] [] rfl
  obtain rfl : Token.word "SELECT" = t := by simpa using congrArg List.getLast? front
  exact absurd call (by decide +kernel)

end Builtin

end Pushdown

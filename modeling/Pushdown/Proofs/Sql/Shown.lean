import Pushdown.Proofs.Sql.Outside

/-!
# What the nodes of a tree show

A value shows the name of a call, the words of a constant or its own name, and a predicate shows
what relates its operands. The operands of a connective are shown as well; everything else stands in
brackets. What can be seen comes from the tables of the dialect, so a check of the tables tells what
any tree shows.
-/

namespace Pushdown

open Render (node asPredicate asOperand Ensures)

/-- What the dialect takes from its tables shows only tokens of the kind. -/
structure Dialect.Shows (d : Dialect) (kind : Token → Bool) : Prop where
  admits : ∀ t, t.isInert → kind t
  functions : d.profile.functions.Forall fun spec => spec.shows kind
  aggregates : d.profile.aggregates.Forall fun spelling => showsOnly kind 0 1 (spelling ++ "(")
  windows : d.profile.windowFunctions.Forall fun spelling => showsOnly kind 0 1 (spelling ++ "(")
  types : d.profile.castStyle = .doubleColon →
    d.profile.types.Forall fun spec => spec.shows kind
  dates : d.profile.ShowsTemplate kind d.profile.dateLiteral
  timestamps : d.profile.ShowsTemplate kind d.profile.timestampLiteral

theorem Dialect.Shows.imp {d : Dialect} {kind wider : Token → Bool} (h : d.Shows kind)
    (weaker : ∀ t, kind t → wider t) : d.Shows wider where
  admits t inert := weaker t (h.admits t inert)
  functions entry member := FunctionSpec.shows_imp weaker (h.functions entry member)
  aggregates entry member := showsOnly_imp weaker (h.aggregates entry member)
  windows entry member := showsOnly_imp weaker (h.windows entry member)
  types style entry member := TypeSpec.shows_imp weaker (h.types style entry member)
  dates := h.dates.imp weaker
  timestamps := h.timestamps.imp weaker

/-- The values that are neither columns nor scalar functions. -/
def termKinds : List Kind := [.literal, .extract, .cast, .case, .aggregate, .groupConcat, .window]

theorem value_cases {n : Node} (expression : n.isExpression) (value : n.isPredicate = false) :
    (∃ c, n = .column c) ∨ (∃ name args, n = .function name args) ∨ n.kind ∈ termKinds := by
  cases n <;>
    simp_all [Node.isExpression, Node.isPredicate, Node.kind, Kind.isExpression, termKinds]

section

variable {d : Dialect} {ctx : Context} {quoteNames : Bool} {kind : Token → Bool}
  (readable : d.Readable)

include readable

/-! ## Values -/

/-- A name shows its parts. -/
theorem names_showsOnly (names : ∀ t, IsNamePart d.profile t → kind t) {s : Sql}
    (parts : ∀ t ∈ s.tokens d.profile quoteNames, IsNamePart d.profile t) :
    s.ShowsOnly d.profile quoteNames kind 0 0 := by
  rw [Sql.ShowsOnly, outside_of_names readable.legible parts]
  exact ⟨rfl, fun t member => names t (parts t member)⟩

theorem column_showsOnly (names : ∀ t, IsNamePart d.profile t → kind t) (c : Column) :
    (Render.column d ctx c).ShowsOnly d.profile quoteNames kind 0 0 :=
  names_showsOnly readable names (Render.column_isNamePart d ctx c)

variable (shows : d.Shows kind)

include shows

/-- Constants, CASE, conversions and calls show what is in the tables. -/
theorem value_showsOnly {n : Node} (wellFormed : n.WellFormed)
    (value : n.kind ∈ Kind.function :: termKinds) :
    Ensures (Sql.ShowsOnly d.profile quoteNames kind 0 0) (node d ctx n) := by
  have unmarked := readable.unmarked
  have marks := readable.legible.marks
  have admits := shows.admits
  have rules := wellFormed.root
  have below (c : Node) (child : c ∈ n.children) :
      Ensures (Render.Rendered d quoteNames c) (node d ctx c) :=
    Render.node_rendered readable (wellFormed.child child)
  have operand (c : Node) (child : c ∈ n.children) :
      Ensures (Phrase d.profile quoteNames false) (asOperand d c (node d ctx c)) :=
    Render.asOperand_phrase marks (below c child)
  have condition (c : Node) (child : c ∈ n.children) :
      Ensures (Phrase d.profile quoteNames false) (asPredicate d c (node d ctx c)) :=
    Render.asPredicate_phrase marks (below c child)
  cases n with
  | literal l =>
    rw [Render.node_literal unmarked]
    exact Render.literal_showsOnly admits shows.dates shows.timestamps rules
  | function name args =>
    rw [Render.node_function unmarked]
    intro s rendered
    obtain ⟨spec, found, rendered⟩ := Render.function_eq_ok.mp rendered
    refine Render.apply_showsOnly marks (readable.functions.get? found)
      (shows.functions.get? found) ?_ s rendered
    rw [List.forall_mem_map]
    exact operand
  | extract part arg =>
    rw [Render.node_extract unmarked]
    exact Render.extract_showsOnly admits rules (operand arg (by simp [Node.children]))
  | cast arg type =>
    rw [Render.node_cast unmarked]
    exact Render.cast_showsOnly admits readable shows.types (operand arg (by simp [Node.children]))
  | case basis branches otherwise =>
    rw [Render.node_case unmarked]
    refine Render.case_showsOnly marks ?_ ?_ ?_
    · rw [Option.forall_mem_map]
      exact fun b given => operand b (by simp [Node.children, Option.mem_def.mp given])
    · rw [List.forall_mem_map]
      intro b member
      have inside : b.condition ∈ (Node.case basis branches otherwise).children :=
        Node.condition_mem_children member
      refine ⟨?_, operand _ (Node.result_mem_children member)⟩
      simp only [Render.asCondition]
      split
      · exact operand _ inside
      · exact condition _ inside
    · rw [Option.forall_mem_map]
      exact fun e given => operand e (by simp [Node.children, Option.mem_def.mp given])
  | aggregate name distinct args filter =>
    rw [Render.node_aggregate unmarked]
    refine Render.aggregate_showsOnly admits marks shows.aggregates ?_ ?_
    · rw [List.forall_mem_map]
      exact fun a member => operand a (by simp [Node.children, member])
    · rw [Option.forall_mem_map]
      exact fun c given => condition c (by simp [Node.children, Option.mem_def.mp given])
  | groupConcat arg distinct order separator =>
    rw [Render.node_groupConcat unmarked]
    refine Render.groupConcat_showsOnly admits (operand arg (by simp [Node.children])) ?_
    rw [Option.forall_mem_map]
    exact fun keys given => (below _ (by simp [Node.children, Option.mem_def.mp given])).imp fun _ known => known.phrase
  | window name args partition order frame =>
    rw [Render.node_window unmarked]
    refine Render.window_showsOnly admits marks shows.windows ?_ ?_ ?_ fun f given =>
      (rules.2.2 f given).2
    · rw [List.forall_mem_map]
      exact fun a member => operand a (by simp [Node.children, member])
    · rw [List.forall_mem_map]
      exact fun a member => operand a (by simp [Node.children, member])
    · rw [Option.forall_mem_map]
      exact fun keys given =>
        (below _ (by simp_all [Node.children])).imp fun _ known => known.phrase
  | _ => simp [Node.kind, termKinds] at value

/-- An operand shows what a value shows; a condition in its place is hidden. -/
theorem operand_showsOnly {n : Node} (wellFormed : n.WellFormed) (expression : n.isExpression)
    (names : n.kind = .column → ∀ t, IsNamePart d.profile t → kind t) :
    Ensures (Sql.ShowsOnly d.profile quoteNames kind 0 0) (asOperand d n (node d ctx n)) := by
  intro s whole
  obtain ⟨t, rendered, rfl⟩ := Render.asOperand_eq_ok.mp whole
  have known : Render.Rendered d quoteNames n t :=
    Render.node_rendered readable wellFormed t rendered
  unfold Render.operandText
  split
  · split
    · exact Render.parens_showsOnly known.phrase
    · exact Render.truthCase_showsOnly known.phrase
  · rename_i other
    split
    · exact Render.parens_showsOnly known.phrase
    · rcases value_cases expression (by simpa using other) with ⟨c, rfl⟩ | ⟨name, args, rfl⟩ | value
      · rw [Render.node_column readable.unmarked] at rendered
        cases rendered
        exact column_showsOnly readable (names rfl) c
      · exact value_showsOnly readable shows wellFormed List.mem_cons_self t rendered
      · exact value_showsOnly readable shows wellFormed (List.mem_cons_of_mem _ value) t rendered

end

/-! ## Conditions -/

namespace Render

open Sql (raw)

variable {d : Dialect} {p : Profile} {quoteNames : Bool} {kind : Token → Bool}
  (content : ∀ t, t.isContent → kind t)

include content

theorem content_showsOnly {before after : Nat} {text : String}
    (h : showsOnly Token.isContent before after text) :
    (raw text).ShowsOnly p quoteNames kind before after := .const (showsOnly_imp content h)

theorem connective_showsOnly {word : String} {operands : List Node}
    {conditions : List (Result Sql)}
    (step : showsOnly Token.isContent 0 0 (" " ++ word ++ " "))
    (phrases : ∀ r ∈ conditions, Ensures (Phrase p quoteNames false) r)
    (each : ∀ r ∈ conditions, Ensures (Sql.ShowsOnly p quoteNames kind 0 0) r) :
    Ensures (Sql.ShowsOnly p quoteNames kind 0 0) (connective word operands conditions) := by
  intro s whole
  obtain ⟨parts, rendered, rfl⟩ := connective_eq_ok.mp whole
  have phrase := Ensures.parts phrases rendered
  have shown := Ensures.parts each rendered
  refine .joinWith (content_showsOnly content step) fun t member => ?_
  obtain ⟨⟨n, u⟩, inside, rfl⟩ := List.mem_map.mp member
  have listed : u ∈ parts := (List.of_mem_zip inside).2
  simp only
  split
  · exact parens_showsOnly (phrase u listed)
  · exact shown u listed

theorem not_showsOnly {condition : Result Sql}
    (h : Ensures (Phrase p quoteNames false) condition) :
    Ensures (Sql.ShowsOnly p quoteNames kind 0 0) (not condition) := by
  intro s whole
  obtain ⟨c, rendered, rfl⟩ := not_eq_ok.mp whole
  exact .call (showsOnly_imp content (by decide)) (h c rendered) rfl

section

variable {expr : Result Sql} (he : Ensures (Sql.ShowsOnly p quoteNames kind 0 0) expr)

include he

theorem comparison_showsOnly {op : ComparisonOp} (known : ∀ symbol, op ≠ .other symbol)
    {right : Result Sql} (hr : Ensures (Sql.ShowsOnly p quoteNames kind 0 0) right) :
    Ensures (Sql.ShowsOnly p quoteNames kind 0 0) (comparison op expr right) := by
  intro s whole
  obtain ⟨l, r, leftRendered, rightRendered, rfl⟩ := comparison_eq_ok.mp whole
  have step : showsOnly Token.isContent 0 0 (" " ++ op.symbol ++ " ") := by
    cases op with
    | other symbol => exact absurd rfl (known symbol)
    | _ => decide
  exact ((he l leftRendered).append (content_showsOnly content step)).append (hr r rightRendered)

theorem like_showsOnly {pattern : Result Sql} {escape : Option (Result Sql)}
    (hp : Ensures (Sql.ShowsOnly p quoteNames kind 0 0) pattern)
    (hx : ∀ r ∈ escape, Ensures (Sql.ShowsOnly p quoteNames kind 0 0) r) :
    Ensures (Sql.ShowsOnly p quoteNames kind 0 0) (like expr pattern escape) := by
  intro s whole
  obtain ⟨e, t, x, exprRendered, patternRendered, escapeRendered, rfl⟩ := like_eq_ok.mp whole
  have matched : (e ++ raw " LIKE " ++ t).ShowsOnly p quoteNames kind 0 0 :=
    ((he e exprRendered).append (content_showsOnly content (by decide))).append
      (hp t patternRendered)
  have escaped := Ensures.part hx escapeRendered
  refine matched.append ?_
  cases x with
  | none => exact .none
  | some x => exact (content_showsOnly content (by decide)).append (escaped x rfl)

theorem between_showsOnly {low high : Result Sql}
    (hl : Ensures (Sql.ShowsOnly p quoteNames kind 0 0) low)
    (hh : Ensures (Sql.ShowsOnly p quoteNames kind 0 0) high) :
    Ensures (Sql.ShowsOnly p quoteNames kind 0 0) (between expr low high) := by
  intro s whole
  obtain ⟨e, l, h, exprRendered, lowRendered, highRendered, rfl⟩ := between_eq_ok.mp whole
  have above : (e ++ raw " BETWEEN " ++ l).ShowsOnly p quoteNames kind 0 0 :=
    ((he e exprRendered).append (content_showsOnly content (by decide))).append (hl l lowRendered)
  exact (above.append (content_showsOnly content (by decide))).append (hh h highRendered)

/-- What a value is looked for in stands in parentheses. -/
theorem in_showsOnly {e t : Sql} (rendered : expr = .ok e)
    (phrase : Phrase p quoteNames false t) :
    (e ++ raw " IN (" ++ t ++ raw ")").ShowsOnly p quoteNames kind 0 0 :=
  (((he e rendered).append (content_showsOnly content (by decide))).append
    (.inside phrase 0)).append (content_showsOnly content (by decide))

theorem isNull_showsOnly : Ensures (Sql.ShowsOnly p quoteNames kind 0 0) (isNull expr) := by
  intro s whole
  obtain ⟨e, rendered, rfl⟩ := isNull_eq_ok.mp whole
  exact (he e rendered).append (content_showsOnly content (by decide))

theorem isNotNull_showsOnly : Ensures (Sql.ShowsOnly p quoteNames kind 0 0) (isNotNull expr) := by
  intro s whole
  obtain ⟨e, rendered, rfl⟩ := isNotNull_eq_ok.mp whole
  exact (he e rendered).append (content_showsOnly content (by decide))

end

end Render

section

variable {d : Dialect} {ctx : Context} {quoteNames : Bool} {kind : Token → Bool}
  (readable : d.Readable) (content : ∀ t, t.isContent → kind t)

include readable content

/-- A connective shows what its operands show. -/
theorem connective_node_showsOnly {n : Node} (placed : n.WellPlaced)
    (connective : n.kind ∈ [.and, .or, .not])
    (each : ∀ c ∈ n.operands,
      Ensures (Sql.ShowsOnly d.profile quoteNames kind 0 0) (asPredicate d c (node d ctx c))) :
    Ensures (Sql.ShowsOnly d.profile quoteNames kind 0 0) (node d ctx n) := by
  have unmarked := readable.unmarked
  have phrase (c : Node) (child : c ∈ n.children) :
      Ensures (Phrase d.profile quoteNames false) (asPredicate d c (node d ctx c)) :=
    Render.asPredicate_phrase readable.legible.marks
      (Render.node_rendered readable (placed.wellFormed.child child))
  cases n with
  | and operands =>
    rw [Render.node_and unmarked]
    exact Render.connective_showsOnly content (by decide) (List.forall_mem_map.mpr phrase)
      (List.forall_mem_map.mpr each)
  | or operands =>
    rw [Render.node_or unmarked]
    exact Render.connective_showsOnly content (by decide) (List.forall_mem_map.mpr phrase)
      (List.forall_mem_map.mpr each)
  | not operand =>
    rw [Render.node_not unmarked]
    exact Render.not_showsOnly content (phrase operand (by simp [Node.children]))
  | _ => simp [Node.kind] at connective

variable (shows : d.Shows kind) (pattern : d.profile.regexp.shows kind)
  (names : ∀ t, IsNamePart d.profile t → kind t)

include shows pattern names

/-- A predicate shows its operands and what relates them. -/
theorem relation_showsOnly {n : Node} (placed : n.WellPlaced) (predicate : n.isPredicate)
    (other : n.kind ∉ [.and, .or, .not]) :
    Ensures (Sql.ShowsOnly d.profile quoteNames kind 0 0) (node d ctx n) := by
  have unmarked := readable.unmarked
  have marks := readable.legible.marks
  have value {c : Node} (member : c ∈ n.operands) :
      Ensures (Sql.ShowsOnly d.profile quoteNames kind 0 0) (asOperand d c (node d ctx c)) :=
    operand_showsOnly readable shows
      (placed.wellFormed.child (Node.mem_children_of_mem_operands member))
      (placed.root.2 c member) fun _ => names
  have below {c : Node} (child : c ∈ n.children) :
      Ensures (Render.Rendered d quoteNames c) (node d ctx c) :=
    Render.node_rendered readable (placed.wellFormed.child child)
  have phrase {c : Node} (child : c ∈ n.children) :
      Ensures (Phrase d.profile quoteNames false) (asOperand d c (node d ctx c)) :=
    Render.asOperand_phrase marks (below child)
  cases n with
  | comparison op left right =>
    rw [Render.node_comparison unmarked]
    exact Render.comparison_showsOnly content (value (by simp [Node.operands, Node.children]))
      placed.root.1 (value (by simp [Node.operands, Node.children]))
  | like expr pattern escape =>
    rw [Render.node_like unmarked]
    refine Render.like_showsOnly content (value (by simp [Node.operands, Node.children]))
      (value (by simp [Node.operands, Node.children])) ?_
    rw [Option.forall_mem_map]
    exact fun x given => value (by simp_all [Node.operands, Node.children])
  | regexpLike expr pattern =>
    rw [Render.node_regexpLike unmarked]
    intro s whole
    refine Render.apply_showsOnly marks readable.regexp ‹_› ?_ s
      (Render.regexpLike_eq_ok.mp whole).2
    simp only [List.mem_cons, List.not_mem_nil, or_false, forall_eq_or_imp, forall_eq]
    exact ⟨phrase (by simp [Node.children]), phrase (by simp [Node.children])⟩
  | between expr low high =>
    rw [Render.node_between unmarked]
    exact Render.between_showsOnly content (value (by simp [Node.operands, Node.children]))
      (value (by simp [Node.operands, Node.children]))
      (value (by simp [Node.operands, Node.children]))
  | inList expr values =>
    rw [Render.node_inList unmarked]
    intro s whole
    obtain ⟨e, vs, rendered, valuesRendered, rfl⟩ := Render.inList_eq_ok.mp whole
    have list : Phrase d.profile quoteNames false (Sql.joinWith ", " vs) := by
      refine Render.list_phrase marks (Ensures.parts ?_ valuesRendered)
      rw [List.forall_mem_map]
      exact fun v member => phrase (by simp [Node.children, member])
    exact Render.in_showsOnly content (value (by simp [Node.operands, Node.children])) rendered list
  | inSubquery expr s =>
    rw [Render.node_inSubquery unmarked]
    intro s whole
    obtain ⟨-, e, t, rendered, statementRendered, rfl⟩ := Render.inSubquery_eq_ok.mp whole
    exact Render.in_showsOnly content (value (by simp [Node.operands])) rendered
      (below (by simp [Node.children]) t statementRendered).phrase
  | isNull expr =>
    rw [Render.node_isNull unmarked]
    exact Render.isNull_showsOnly content (value (by simp [Node.operands, Node.children]))
  | isNotNull expr =>
    rw [Render.node_isNotNull unmarked]
    exact Render.isNotNull_showsOnly content (value (by simp [Node.operands, Node.children]))
  | _ => simp_all [Node.isPredicate, Node.kind]

/-- A condition shows what its operands and the connectives show. -/
theorem condition_showsOnly {n : Node} (placed : n.WellPlaced) (expression : n.isExpression) :
    Ensures (Sql.ShowsOnly d.profile quoteNames kind 0 0) (asPredicate d n (node d ctx n)) := by
  induction n using Node.induction with
  | step n ih =>
    have bare : Ensures (Sql.ShowsOnly d.profile quoteNames kind 0 0) (node d ctx n) := by
      by_cases connective : n.kind ∈ [.and, .or, .not]
      · refine connective_node_showsOnly readable content placed connective fun c member => ?_
        have child := Node.mem_children_of_mem_operands member
        exact ih c child (placed.child child) (placed.root.2 c member)
      · by_cases predicate : n.isPredicate
        · exact relation_showsOnly readable content shows pattern names placed predicate connective
        · rcases value_cases expression (by simpa using predicate) with
            ⟨c, rfl⟩ | ⟨name, args, rfl⟩ | value
          · rw [Render.node_column readable.unmarked]
            rintro s ⟨⟩
            exact column_showsOnly readable names c
          · exact value_showsOnly readable shows placed.wellFormed List.mem_cons_self
          · exact value_showsOnly readable shows placed.wellFormed (List.mem_cons_of_mem _ value)
    intro s whole
    rcases Render.asPredicate_eq_ok whole with rendered |
      ⟨-, ⟨l, -, -, rfl⟩ | ⟨c, t, -, -, rendered, rfl⟩⟩
    · exact bare s rendered
    · unfold Render.truthText
      split
      · exact Render.content_showsOnly content (by decide)
      · exact Render.content_showsOnly content (by decide)
    · exact (bare t rendered).append (Render.content_showsOnly content (by decide))

end

end Pushdown

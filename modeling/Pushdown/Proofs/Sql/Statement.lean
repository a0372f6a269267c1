import Mathlib.Data.Option.Basic
import Pushdown.Proofs.Sql.Composition

/-!
# Whole statements as phrases

The clauses of a statement, and the induction over the tree.
-/

namespace Pushdown.Render

open Sql (raw joinWith parens)

section

variable {d : Dialect} {ctx : Context} {quoteNames : Bool}

section

variable {p : Profile} (marks : Lexer.HasMarks p)

include marks

/-! ## Clauses -/

theorem selectItem_phrase (legible : p.Legible) {aliasName : String} {expr : Result Sql}
    (h : Ensures (Phrase p quoteNames false) expr) :
    Ensures (Phrase p quoteNames false) (selectItem aliasName expr) := by
  intro s whole
  obtain ⟨e, rendered, rfl⟩ := selectItem_eq_ok.mp whole
  have phrase := h e rendered
  split
  · exact phrase
  · exact ((phrase.const marks [] .apart (by decide)).name legible aliasName).weaken

theorem selectList_phrase {star : Bool} {items : List (Result Sql)}
    (h : ∀ r ∈ items, Ensures (Phrase p quoteNames false) r) :
    Ensures (Phrase p quoteNames false) (selectList d star items) := by
  intro s whole
  have forms := selectList_eq_ok.mp whole
  split at forms
  · subst forms
    exact Draft.ofConst marks [] .within (by decide)
  · obtain ⟨parts, rendered, rfl⟩ := forms
    split
    · unfold anyValue
      split
      · exact Draft.ofConst marks [] .within (by decide)
      · exact Draft.ofConst marks [] .within (by decide)
    · exact list_phrase marks (Ensures.parts h rendered)

theorem join_phrase {type : JoinType} {left right condition : Result Sql} {rightKind : Kind}
    (hl : Ensures (Phrase p quoteNames false) left)
    (hr : Ensures (Phrase p quoteNames false) right)
    (hc : Ensures (Phrase p quoteNames false) condition) :
    Ensures (Phrase p quoteNames false) (join d type left rightKind right condition) := by
  intro s whole
  obtain ⟨keyword, l, r, c, found, leftRendered, rightRendered, conditionRendered, rfl⟩ :=
    join_eq_ok.mp whole
  have item : Phrase p quoteNames false (if rightKind = .join then parens r else r) := by
    split
    · exact (parens_value marks (hr r rightRendered)).condition
    · exact hr r rightRendered
  have keywords : ∀ keyword ∈ ["INNER JOIN", "LEFT OUTER JOIN", "RIGHT OUTER JOIN",
      "FULL OUTER JOIN"], isStep false [] .within (" " ++ keyword ++ " ") [] .apart := by decide
  have joined := (hl l leftRendered).draft.also marks (" " ++ keyword ++ " ") []
    (keywords keyword (joinKeyword_eq_ok found)) item (by simp)
  exact joined.also marks " ON " [] (by decide) (hc c conditionRendered) (by simp)

theorem sortKey_phrase {ascending nullsLast : Bool} {expr : Result Sql}
    (h : Ensures (Phrase p quoteNames false) expr) :
    Ensures (Phrase p quoteNames false) (sortKey d ascending nullsLast expr) := by
  intro s whole
  obtain ⟨e, rendered, rfl⟩ := sortKey_eq_ok.mp whole
  have texts : ∀ text ∈ directions,
      (isPlainText [] text && nest false [] (Lexer.plainTokens text.toList) == some []) ∧
        Lexer.startsApart text.toList := by decide
  have known := texts _ (direction_mem d ascending nullsLast)
  exact (h e rendered).draft.maybe marks (.const marks known.1) known.2

theorem orderBy_phrase {keys : List (Result Sql)}
    (h : ∀ r ∈ keys, Ensures (Phrase p quoteNames false) r) :
    Ensures (Phrase p quoteNames false) (orderBy keys) := by
  intro s whole
  obtain ⟨parts, rendered, rfl⟩ := orderBy_eq_ok.mp whole
  exact (Draft.ofConst marks [] .apart (by decide)).part
    (list_phrase marks (Ensures.parts h rendered)) (by simp)

theorem groupBy_phrase {exprs : List (Result Sql)}
    (h : ∀ r ∈ exprs, Ensures (Phrase p quoteNames false) r) :
    Ensures (Phrase p quoteNames false) (groupBy exprs) := by
  intro s whole
  obtain ⟨parts, rendered, rfl⟩ := groupBy_eq_ok.mp whole
  exact (Draft.ofConst marks [] .apart (by decide)).part
    (list_phrase marks (Ensures.parts h rendered)) (by simp)

theorem limitOnTop_draft {limit : Option Sql} (h : ∀ l ∈ limit, Phrase p quoteNames false l)
    {s : Sql} (hs : Draft p quoteNames false [] [] .apart s) :
    Draft p quoteNames false [] [] .apart (s ++ limitOnTop d limit) := by
  unfold limitOnTop
  split
  · cases limit with
    | none => simpa using hs
    | some l =>
      have limited : Draft p quoteNames false [] [] .apart (s ++ l ++ raw " ") :=
        (hs.part (h l rfl) (by simp)).const marks [] .apart (by decide)
      simpa using limited
  · simpa using hs

theorem limitAtEnd_phrase {limit : Option Sql} (h : ∀ l ∈ limit, Phrase p quoteNames false l)
    {s : Sql} (hs : Phrase p quoteNames false s) :
    Phrase p quoteNames false (s ++ limitAtEnd d limit) := by
  unfold limitAtEnd
  split
  · simpa using hs
  · exact Phrase.clause marks hs " " (by decide) h (by simp)

theorem fromClause_phrase (dummy : IsText p true d.profile.dummyTable) {source : Option Sql}
    (h : ∀ t ∈ source, Phrase p quoteNames false t) {s : Sql} (hs : Phrase p quoteNames false s) :
    Phrase p quoteNames false (s ++ fromClause d source) := by
  unfold fromClause
  split
  · rename_i t
    have added := hs.draft.also marks " FROM " [] (by decide) (h t rfl) (by simp)
    simpa using added
  · split
    · simpa using hs
    · have part : IsText p false (" FROM " ++ d.profile.dummyTable) :=
        .lead marks [] (by decide) (dummy.frame [] (by simp))
      exact hs.draft.maybe marks part (Lexer.startsApart_append (by decide))

theorem select_phrase (dummy : IsText p true d.profile.dummyTable)
    {limit : Option (Result Sql)} {list : Result Sql}
    {source filter grouping having order : Option (Result Sql)}
    (hn : ∀ r ∈ limit, Ensures (Phrase p quoteNames false) r)
    (hl : Ensures (Phrase p quoteNames false) list)
    (hs : ∀ r ∈ source, Ensures (Phrase p quoteNames false) r)
    (hw : ∀ r ∈ filter, Ensures (Phrase p quoteNames false) r)
    (hg : ∀ r ∈ grouping, Ensures (Phrase p quoteNames false) r)
    (hh : ∀ r ∈ having, Ensures (Phrase p quoteNames false) r)
    (ho : ∀ r ∈ order, Ensures (Phrase p quoteNames false) r) :
    Ensures (Phrase p quoteNames false)
      (select d limit list source filter grouping having order) := by
  intro s whole
  obtain ⟨n, l, f, w, g, h, o, limitRendered, listRendered, sourceRendered, filterRendered,
    groupingRendered, havingRendered, orderRendered, rfl⟩ := select_eq_ok.mp whole
  have limits := Ensures.part hn limitRendered
  have opened : Draft p quoteNames false [] [] .apart (raw "SELECT ") :=
    .ofConst marks [] .apart (by decide)
  have listed := (limitOnTop_draft (d := d) marks limits opened).part (hl l listRendered) (by simp)
  have sourced := fromClause_phrase marks dummy (Ensures.part hs sourceRendered) listed
  have filtered := Phrase.clause marks sourced " WHERE " (by decide)
    (Ensures.part hw filterRendered) (by simp)
  have grouped := Phrase.clause marks filtered " " (by decide)
    (Ensures.part hg groupingRendered) (by simp)
  have kept := Phrase.clause marks grouped " HAVING " (by decide)
    (Ensures.part hh havingRendered) (by simp)
  have ordered := Phrase.clause marks kept " " (by decide) (Ensures.part ho orderRendered) (by simp)
  exact limitAtEnd_phrase marks limits ordered

end

theorem subSelect_phrase (legible : d.profile.Legible) {statement : Result Sql}
    {aliasName : String} (h : Ensures (Phrase d.profile quoteNames false) statement) :
    Ensures (Phrase d.profile quoteNames false) (subSelect d statement aliasName) := by
  intro s whole
  obtain ⟨-, t, rendered, rfl⟩ := subSelect_eq_ok.mp whole
  have enclosed := (parens_value legible.marks (h t rendered)).condition
  exact tableAlias_draft legible enclosed aliasName

/-! ## The tree -/

namespace Rendered

variable {n : Node} {r : Result Sql}

theorem ofPhrase {quiet : Bool} (other : n.isExpression = false ∨ n.isPredicate)
    (h : Ensures (Phrase d.profile quoteNames quiet) r) : Ensures (Rendered d quoteNames n) r := by
  intro s rendered
  refine ⟨(h s rendered).unquiet, fun expression value => ?_, fun term => ?_⟩
  · rcases other with absurdity | absurdity
    · rw [absurdity] at expression
      contradiction
    · rw [absurdity] at value
      contradiction
  · cases n <;> simp_all [Node.isExpression, Node.isPredicate, Node.kind, Kind.isExpression, isTermKind]

theorem ofValue (kind : isTermKind n.kind = false)
    (h : Ensures (IsValue d.profile quoteNames) r) : Ensures (Rendered d quoteNames n) r := by
  intro s rendered
  have value := h s rendered
  exact ⟨value.condition, fun _ _ => value, fun term => by simp [kind] at term⟩

theorem ofTerm (h : Ensures (IsTerm d.profile quoteNames) r) :
    Ensures (Rendered d quoteNames n) r := by
  intro s rendered
  have term := h s rendered
  exact ⟨term.condition, fun _ _ => term.toIsValue, fun _ => term⟩

end Rendered

/-- A node is a phrase if its children are. -/
theorem node_rendered_step (readable : d.Readable) {n : Node} (rules : n.KeepsRules)
    (below : ∀ c ∈ n.children, Ensures (Rendered d quoteNames c) (node d ctx c)) :
    Ensures (Rendered d quoteNames n) (node d ctx n) := by
  have unmarked := readable.unmarked
  have marks := readable.legible.marks
  have operand : ∀ c ∈ n.children,
      Ensures (Phrase d.profile quoteNames false) (asOperand d c (node d ctx c)) := fun c child =>
    asOperand_phrase marks (below c child)
  have condition : ∀ c ∈ n.children,
      Ensures (Phrase d.profile quoteNames false) (asPredicate d c (node d ctx c)) := fun c child =>
    asPredicate_phrase marks (below c child)
  have phrase : ∀ c ∈ n.children,
      Ensures (Phrase d.profile quoteNames false) (node d ctx c) := fun c child =>
    (below c child).imp fun _ rendered => rendered.phrase
  clear below
  cases n with
  | select s =>
    rw [node_select unmarked]
    refine .ofPhrase (.inl rfl) (select_phrase marks readable.dummyTable ?_ ?_ ?_ ?_ ?_ ?_ ?_)
    · rw [Option.forall_mem_map]
      exact fun l given => phrase _ (by simp [Node.children, Option.mem_def.mp given])
    · exact phrase _ (by simp [Node.children])
    · rw [Option.forall_mem_map]
      exact fun item given => phrase _ (by simp [Node.children, Option.mem_def.mp given])
    · rw [Option.forall_mem_map]
      exact fun c given => condition c (by simp [Node.children, Option.mem_def.mp given])
    · rw [Option.forall_mem_map]
      exact fun exprs given => phrase _ (by simp [Node.children, Option.mem_def.mp given])
    · rw [Option.forall_mem_map]
      exact fun c given => condition c (by simp [Node.children, Option.mem_def.mp given])
    · rw [Option.forall_mem_map]
      exact fun keys given => phrase _ (by simp [Node.children, Option.mem_def.mp given])
  | selectList l =>
    rw [node_selectList unmarked]
    refine .ofPhrase (.inl rfl) (selectList_phrase marks ?_)
    rw [List.forall_mem_map]
    intro item member
    exact selectItem_phrase marks readable.legible
      (operand _ (List.mem_map.mpr ⟨item, member, rfl⟩))
  | table t =>
    rw [node_table unmarked]
    have named : Ensures (Phrase d.profile quoteNames false) (.ok (table d ctx t)) := by
      rintro _ ⟨⟩
      exact table_phrase readable.legible t
    exact .ofPhrase (.inl rfl) named
  | join type left right c =>
    rw [node_join unmarked]
    exact .ofPhrase (.inl rfl) (join_phrase marks (phrase _ (by simp [Node.children]))
      (phrase _ (by simp [Node.children])) (condition _ (by simp [Node.children])))
  | subSelect s aliasName =>
    rw [node_subSelect unmarked]
    exact .ofPhrase (.inl rfl) (subSelect_phrase readable.legible
      (phrase _ (by simp [Node.children])))
  | column c =>
    rw [node_column unmarked]
    refine .ofTerm ?_
    rintro _ ⟨⟩
    exact column_term readable.legible c
  | literal l =>
    rw [node_literal unmarked]
    exact .ofTerm fun s rendered => literal_term readable rules rendered
  | and operands =>
    rw [node_and unmarked]
    refine .ofPhrase (.inr rfl) (connective_phrase marks (by decide) ?_)
    rw [List.forall_mem_map]
    exact condition
  | or operands =>
    rw [node_or unmarked]
    refine .ofPhrase (.inr rfl) (connective_phrase marks (by decide) ?_)
    rw [List.forall_mem_map]
    exact condition
  | not c =>
    rw [node_not unmarked]
    exact .ofPhrase (.inr rfl) (not_phrase marks (condition _ (by simp [Node.children])))
  | comparison op left right =>
    rw [node_comparison unmarked]
    exact .ofPhrase (.inr rfl) (comparison_phrase marks rules
      (operand _ (by simp [Node.children]))
      (operand _ (by simp [Node.children])))
  | like expr pattern escape =>
    rw [node_like unmarked]
    refine .ofPhrase (.inr rfl) (like_phrase marks
      (operand _ (by simp [Node.children]))
      (operand _ (by simp [Node.children])) ?_)
    rw [Option.forall_mem_map]
    exact fun x given => operand x (by simp [Node.children, Option.mem_def.mp given])
  | regexpLike expr pattern =>
    rw [node_regexpLike unmarked]
    exact .ofPhrase (.inr rfl) ((regexpLike_value marks readable.regexp
      (operand _ (by simp [Node.children]))
      (operand _ (by simp [Node.children]))).imp fun _ value => value.phrase)
  | between expr low high =>
    rw [node_between unmarked]
    exact .ofPhrase (.inr rfl) (between_phrase marks
      (operand _ (by simp [Node.children]))
      (operand _ (by simp [Node.children]))
      (operand _ (by simp [Node.children])))
  | inList expr values =>
    rw [node_inList unmarked]
    refine .ofPhrase (.inr rfl) (inList_phrase marks
      (operand _ (by simp [Node.children])) ?_)
    rw [List.forall_mem_map]
    exact fun v member => operand v (by simp [Node.children, member])
  | inSubquery expr s =>
    rw [node_inSubquery unmarked]
    exact .ofPhrase (.inr rfl) (inSubquery_phrase marks (operand _ (by simp [Node.children]))
      (phrase _ (by simp [Node.children])))
  | isNull expr =>
    rw [node_isNull unmarked]
    exact .ofPhrase (.inr rfl) (isNull_phrase marks
      (operand _ (by simp [Node.children])))
  | isNotNull expr =>
    rw [node_isNotNull unmarked]
    exact .ofPhrase (.inr rfl) (isNotNull_phrase marks
      (operand _ (by simp [Node.children])))
  | function name args =>
    rw [node_function unmarked]
    refine .ofValue rfl ?_
    intro s rendered
    obtain ⟨spec, found, rendered⟩ := function_eq_ok.mp rendered
    refine apply_value marks (readable.functions.get? found) ?_ s rendered
    rw [List.forall_mem_map]
    exact operand
  | extract part arg =>
    rw [node_extract unmarked]
    exact .ofTerm (extract_term marks rules (operand _ (by simp [Node.children])))
  | cast arg type =>
    rw [node_cast unmarked]
    exact .ofValue rfl (cast_value readable (operand _ (by simp [Node.children])))
  | case basis branches otherwise =>
    rw [node_case unmarked]
    refine .ofTerm (case_term marks ?_ ?_ ?_)
    · rw [Option.forall_mem_map]
      exact fun b given => operand b (by simp [Node.children, Option.mem_def.mp given])
    · rw [List.forall_mem_map]
      intro b member
      have inside : b.condition ∈ (Node.case basis branches otherwise).children :=
        Node.condition_mem_children member
      refine ⟨?_, operand _ (Node.result_mem_children member)⟩
      simp only [asCondition]
      split
      · exact operand _ inside
      · exact condition _ inside
    · rw [Option.forall_mem_map]
      exact fun e given => operand e (by simp [Node.children, Option.mem_def.mp given])
  | aggregate name distinct args filter =>
    rw [node_aggregate unmarked]
    refine .ofTerm (aggregate_term marks readable.aggregates ?_ ?_)
    · rw [List.forall_mem_map]
      exact fun a member => operand a (by simp [Node.children, member])
    · rw [Option.forall_mem_map]
      exact fun c given => condition c (by simp [Node.children, Option.mem_def.mp given])
  | groupConcat arg distinct order separator =>
    rw [node_groupConcat unmarked]
    refine .ofTerm (groupConcat_term marks (operand _ (by simp [Node.children])) ?_)
    rw [Option.forall_mem_map]
    exact fun keys given => phrase _ (by simp [Node.children, Option.mem_def.mp given])
  | window name args partition order frame =>
    rw [node_window unmarked]
    refine .ofTerm (window_term marks readable.windows ?_ ?_ ?_ fun f given =>
      (rules.2.2 f given).2)
    · rw [List.forall_mem_map]
      exact fun a member => operand a (by simp [Node.children, member])
    · rw [List.forall_mem_map]
      exact fun a member => operand a (by simp [Node.children, member])
    · rw [Option.forall_mem_map]
      exact fun keys given => phrase _ (by simp [Node.children, Option.mem_def.mp given])
  | groupBy exprs =>
    rw [node_groupBy unmarked]
    refine .ofPhrase (.inl rfl) (groupBy_phrase marks ?_)
    rw [List.forall_mem_map]
    exact operand
  | orderBy keys =>
    rw [node_orderBy unmarked]
    refine .ofPhrase (.inl rfl) (orderBy_phrase marks ?_)
    rw [List.forall_mem_map]
    exact fun key member => sortKey_phrase marks (operand _ (List.mem_map.mpr ⟨key, member, rfl⟩))
  | limit l =>
    rw [node_limit unmarked]
    have text := limitText_isText marks d.profile.limitStyle l
    exact .ofPhrase (.inl rfl) fun s rendered => limit_eq_ok rendered ▸ Draft.ofIsText text

/-- Every node of a well-formed tree is rendered to a phrase. -/
theorem node_rendered (readable : d.Readable) {n : Node} (wellFormed : n.WellFormed) :
    Ensures (Rendered d quoteNames n) (node d ctx n) := by
  induction n using Node.induction with
  | step n ih =>
    obtain ⟨rules, below⟩ := Node.everywhere_iff.mp wellFormed
    exact node_rendered_step readable rules fun c child => ih c child (below c child)

end

end Pushdown.Render

import Pushdown.Proofs.Dialect.Reserved
import Pushdown.Proofs.Sql.Interpretation
import Pushdown.Proofs.Sql.Statement

/-!
# Conditions read back

The text of a condition shows the tree of its connectives: read with the usual precedence, it gives
back the tree, except that conjunctions and disjunctions of a single operand vanish. The leaves are
whatever is neither a connective nor a negation.

An infix operator with a single argument is written as its argument in parentheses. Where conditions
are values, it is therefore read as its argument, and `Node.logic` sees through it.
-/

namespace Pushdown

open Grouping (Groups)
open Render (node asPredicate asOperand operandText Ensures Rendered)

/-! ## The shape of a condition -/

namespace Logic

/-- Read a condition as a tree of connectives over the items between them. -/
def reader : Reader (Logic (List Item)) (Logic (List Item)) where
  toConnectives := connectives
  operand
    | [⟨.group .paren _, some inside⟩] => inside
    | es => .leaf (es.map Entry.item)

def reading : Interpretation (Logic (List Item)) (Logic (List Item)) where
  toReader := reader
  inside _ es := reader.condition es
  grouped _ _ := rfl

/-- Only parentheses around everything are seen through. -/
theorem operand_eq_leaf {items : List Item} (other : ∀ inner, items ≠ [.group .paren inner]) :
    reading.operand (reading.entries items) = .leaf items := by
  have same : (reading.entries items).map Entry.item = items := Item.entries_items _ items
  change (match reading.entries items with
    | [⟨.group .paren _, some inside⟩] => inside
    | es => .leaf (es.map Entry.item)) = _
  split
  · rename_i inner inside enclosed
    rw [enclosed] at same
    exact absurd same.symm (other inner)
  · rw [same]

end Logic

/-- The text shows no connective. -/
def Sql.ReadsLeaf (p : Profile) (quoteNames : Bool) (s : Sql) : Prop :=
  ∃ items, Logic.reading.StandsAs p quoteNames s (.leaf items)

section

variable {p : Profile} {quoteNames : Bool} {s : Sql}

/-- A text without marks at its top level is a leaf, unless parentheses enclose all of it. -/
theorem Phrase.readsLeaf (phrase : Phrase p quoteNames true s)
    (other : ∀ inner, ¬ Groups (s.tokens p quoteNames) [.group .paren inner]) :
    s.ReadsLeaf p quoteNames := by
  obtain ⟨items, grouped, plain⟩ := Grouping.exists_groups phrase.nested
  have leaf : Logic.reading.operand (Logic.reading.entries items) = .leaf items :=
    Logic.operand_eq_leaf fun inner same => other inner (same ▸ grouped)
  refine ⟨items, items, grouped, Interpretation.stands_of_calm fun i member => ?_, ?_⟩
  · rw [plain rfl i member]
    decide
  · rw [← leaf]
    cases items with
    | nil => rfl
    | cons i items =>
      exact Interpretation.negation_of_first (by simp [plain rfl i (by simp)])

/-- No parentheses enclose a value that does not begin with one. -/
theorem IsTerm.not_enclosed (h : IsTerm p quoteNames s) (inner : List Item) :
    ¬ Groups (s.tokens p quoteNames) [.group .paren inner] := by
  intro enclosed
  have bare := h.bare
  obtain ⟨t, rest, tokens⟩ := List.exists_cons_of_ne_nil h.nonempty
  rw [tokens] at enclosed bare
  obtain ⟨i, others, same, opens⟩ := enclosed.first
  obtain rfl : Item.group .paren inner = i := by simpa using (List.cons.inj same).1
  rw [Token.mark_eq_opens_paren.mp (opens .paren rfl)] at bare
  simp [beginsBare] at bare

theorem IsTerm.readsLeaf (h : IsTerm p quoteNames s) : s.ReadsLeaf p quoteNames :=
  Phrase.readsLeaf h.phrase h.not_enclosed

/-- No parentheses enclose a value with more behind it. -/
theorem IsValue.append_not_enclosed {t : Sql} (value : IsValue p quoteNames s)
    (whole : Phrase p quoteNames true (s ++ t)) (nonempty : t.tokens p quoteNames ≠ [])
    (inner : List Item) : ¬ Groups ((s ++ t).tokens p quoteNames) [.group .paren inner] := by
  intro enclosed
  obtain ⟨first, grouped, -, found⟩ := value.exists_items
  have nested := whole.nested
  rw [Sql.tokens_append, nest_append, value.phrase.nested, Option.bind_some] at nested
  obtain ⟨second, grouped', -⟩ := Grouping.exists_groups nested
  have found' := grouped'.ne_nil nonempty
  rw [Sql.tokens_append] at enclosed
  have length := congrArg List.length (enclosed.unique (grouped.append grouped'))
  have := List.length_pos_iff.mpr found
  have := List.length_pos_iff.mpr found'
  simp only [List.length_append, List.length_singleton] at length
  omega

/-- A value with more behind it is a leaf. -/
theorem IsValue.append_readsLeaf {t : Sql} (value : IsValue p quoteNames s)
    (whole : Phrase p quoteNames true (s ++ t)) (nonempty : t.tokens p quoteNames ≠ []) :
    (s ++ t).ReadsLeaf p quoteNames :=
  Phrase.readsLeaf whole (value.append_not_enclosed whole nonempty)

theorem Sql.ReadsLeaf.parens (h : s.ReadsLeaf p quoteNames) :
    (Sql.parens s).ReadsLeaf p quoteNames := by
  obtain ⟨items, stands⟩ := h
  exact ⟨items, stands.reads.parens⟩

/-! ## Leaves -/

namespace Render

open Sql (raw joinWith parens)

variable {d : Dialect} (marks : Lexer.HasMarks p)

include marks

theorem comparison_readsLeaf {op : ComparisonOp} (known : ∀ symbol, op ≠ .other symbol)
    {left right : Result Sql} (hl : Ensures (IsValue p quoteNames) left)
    (hr : Ensures (IsValue p quoteNames) right) :
    Ensures (Sql.ReadsLeaf p quoteNames) (comparison op left right) := by
  intro s whole
  have phrase := comparison_phrase marks known hl.quiet hr.quiet s whole
  obtain ⟨l, r, leftRendered, rightRendered, rfl⟩ := comparison_eq_ok.mp whole
  rw [List.append_assoc] at phrase ⊢
  exact (hl l leftRendered).append_readsLeaf phrase (by simp [(hr r rightRendered).nonempty])

theorem like_readsLeaf {expr pattern : Result Sql} {escape : Option (Result Sql)}
    (he : Ensures (IsValue p quoteNames) expr) (hp : Ensures (IsValue p quoteNames) pattern)
    (hx : ∀ r ∈ escape, Ensures (IsValue p quoteNames) r) :
    Ensures (Sql.ReadsLeaf p quoteNames) (like expr pattern escape) := by
  intro s whole
  have phrase := like_phrase marks he.quiet hp.quiet (fun r given => (hx r given).quiet) s whole
  obtain ⟨e, t, x, exprRendered, patternRendered, -, rfl⟩ := like_eq_ok.mp whole
  rw [List.append_assoc, List.append_assoc] at phrase ⊢
  exact (he e exprRendered).append_readsLeaf phrase (by simp [(hp t patternRendered).nonempty])

theorem inList_readsLeaf {expr : Result Sql} {values : List (Result Sql)}
    (he : Ensures (IsValue p quoteNames) expr)
    (hv : ∀ r ∈ values, Ensures (IsValue p quoteNames) r) :
    Ensures (Sql.ReadsLeaf p quoteNames) (inList expr values) := by
  intro s whole
  have phrase := inList_phrase marks he.quiet (fun r member => (hv r member).condition) s whole
  obtain ⟨e, vs, exprRendered, -, rfl⟩ := inList_eq_ok.mp whole
  have closing : Lexer.plainTokens ")".toList ≠ [] := by decide
  rw [List.append_assoc, List.append_assoc] at phrase ⊢
  refine (he e exprRendered).append_readsLeaf phrase ?_
  simp only [Sql.tokens_append, Sql.tokens_raw, ne_eq, List.append_eq_nil_iff]
  exact fun absurdity => closing absurdity.2.2

theorem inSubquery_readsLeaf {expr statement : Result Sql}
    (he : Ensures (IsValue p quoteNames) expr)
    (hs : Ensures (Phrase p quoteNames false) statement) :
    Ensures (Sql.ReadsLeaf p quoteNames) (inSubquery d expr statement) := by
  intro s whole
  have phrase := inSubquery_phrase marks he.quiet hs s whole
  obtain ⟨-, e, t, exprRendered, -, rfl⟩ := inSubquery_eq_ok.mp whole
  have closing : Lexer.plainTokens ")".toList ≠ [] := by decide
  rw [List.append_assoc, List.append_assoc] at phrase ⊢
  refine (he e exprRendered).append_readsLeaf phrase ?_
  simp only [Sql.tokens_append, Sql.tokens_raw, ne_eq, List.append_eq_nil_iff]
  exact fun absurdity => closing absurdity.2.2

theorem isNull_readsLeaf {expr : Result Sql} (he : Ensures (IsValue p quoteNames) expr) :
    Ensures (Sql.ReadsLeaf p quoteNames) (isNull expr) := by
  intro s whole
  have phrase := isNull_phrase marks he.quiet s whole
  obtain ⟨e, rendered, rfl⟩ := isNull_eq_ok.mp whole
  have keyword : Lexer.plainTokens " IS NULL".toList ≠ [] := by decide
  exact (he e rendered).append_readsLeaf phrase (by rw [Sql.tokens_raw]; exact keyword)

omit marks in
theorem between_readsLeaf {expr low high : Result Sql} (he : Ensures (IsValue p quoteNames) expr)
    (hl : Ensures (IsValue p quoteNames) low) (hh : Ensures (IsValue p quoteNames) high) :
    Ensures (Sql.ReadsLeaf p quoteNames) (between expr low high) := by
  intro s whole
  obtain ⟨e, l, h, exprRendered, lowRendered, highRendered, rfl⟩ := between_eq_ok.mp whole
  obtain ⟨expr, exprItems⟩ := (he e exprRendered).exists_items
  obtain ⟨low, lowItems⟩ := (hl l lowRendered).exists_items
  obtain ⟨high, highItems⟩ := (hh h highRendered).exists_items
  refine ⟨_, Logic.operand_eq_leaf ?_ ▸ Interpretation.between_standsAs exprItems lowItems highItems⟩
  intro inner same
  have length := congrArg List.length same
  simp [Interpretation.rangeItems] at length
  omega

omit marks in
theorem isNotNull_readsLeaf {expr : Result Sql} (he : Ensures (IsValue p quoteNames) expr) :
    Ensures (Sql.ReadsLeaf p quoteNames) (isNotNull expr) := by
  intro s whole
  obtain ⟨e, rendered, rfl⟩ := isNotNull_eq_ok.mp whole
  obtain ⟨expr, items⟩ := (he e rendered).exists_items
  have tokens : Lexer.plainTokens " IS NOT NULL".toList =
    [.word "IS", .word "NOT", .word "NULL"] := by decide
  refine ⟨_, Logic.operand_eq_leaf ?_ ▸ Interpretation.words_standsAs items tokens (by decide)⟩
  intro inner same
  have length := congrArg List.length same
  simp at length

omit marks in
/-- The parenthesis and the operator are one fragment, which makes no difference to the tokens. -/
theorem unary_tokens (name : String) (arg : Sql) :
    Sql.tokens p quoteNames (raw ("(" ++ name ++ " ") ++ arg ++ raw ")") =
      (parens (raw (name ++ " ") ++ arg)).tokens p quoteNames := by
  have opening := Lexer.plainTokens_append_of_idle (a := "(".toList) (b := (name ++ " ").toList)
    (by decide)
  rw [← String.toList_append, ← String.append_assoc] at opening
  simp only [parens, Sql.tokens_append, Sql.tokens_raw, opening, List.append_assoc]

omit marks in
theorem unary_term {name : String} (readable : Leads p [] (name ++ " ") [] ∧ isNamed (name ++ " "))
    {arg : Sql} (h : IsValue p quoteNames arg) : IsTerm p quoteNames (raw (name ++ " ") ++ arg) :=
  .ofRaw ((Draft.ofText readable.1.plain readable.1.nested (.inr ⟨rfl, readable.1.idle⟩)).part
    h.phrase (by simp)) readable.2

/-- At least two values with an operator between them. -/
theorem operator_readsLeaf {operator : String} (readable : Leads p [] (" " ++ operator ++ " ") [])
    {first second : Sql} {parts : List Sql}
    (each : ∀ t ∈ first :: second :: parts, IsValue p quoteNames t) :
    (joinWith (" " ++ operator ++ " ") (first :: second :: parts)).ReadsLeaf p quoteNames := by
  have phrase := operator_phrase marks readable fun t member => (each t member).phrase
  have split : joinWith (" " ++ operator ++ " ") (first :: second :: parts) =
      first ++ (raw (" " ++ operator ++ " ") ++
        joinWith (" " ++ operator ++ " ") (second :: parts)) := by
    simp [joinWith, List.intersperse]
  have more : (joinWith (" " ++ operator ++ " ") (second :: parts)).tokens p quoteNames ≠ [] := by
    have nonempty := (each second (by simp)).nonempty
    cases parts <;> simp [joinWith, List.intersperse, nonempty]
  rw [split] at phrase ⊢
  exact (each first (by simp)).append_readsLeaf phrase (by simp [more])

/-- A function is a leaf, except for an infix operator with a single argument, which is written as
the argument in parentheses. -/
theorem apply_reads {kind : Kind} {spec : FunctionSpec} (readable : spec.IsReadable p)
    {args : List (Result Sql)} (h : ∀ r ∈ args, Ensures (IsValue p quoteNames) r) {s : Sql}
    (whole : apply d kind spec args = .ok s) :
    (spec.style = .operator → args.length ≠ 1) ∧ s.ReadsLeaf p quoteNames ∨
      ∃ a, spec.style = .operator ∧ args = [.ok a] ∧ s = parens a := by
  have value := apply_value marks readable (fun r member => (h r member).condition) s whole
  rcases apply_eq_ok whole with ⟨style, rfl⟩ | ⟨arg, rest, style, rendered, rfl⟩ |
    ⟨parts, style, rendered, rfl⟩ | ⟨parts, style, rendered, rfl⟩
  · simp only [FunctionSpec.IsReadable, style] at readable
    exact .inl ⟨by simp [style], (IsTerm.ofRaw value.phrase readable.2).readsLeaf⟩
  · refine .inl ⟨by simp [style], ?_⟩
    simp only [FunctionSpec.IsReadable, style] at readable
    have operand : IsValue p quoteNames arg := h (.ok arg) (by simp [rendered]) arg rfl
    obtain ⟨items, stands⟩ := (unary_term readable operand).readsLeaf.parens
    exact ⟨items, stands.congr (unary_tokens ..).symm⟩
  · simp only [FunctionSpec.IsReadable, style] at readable
    have each := Ensures.parts h rendered
    rcases parts with _ | ⟨first, _ | ⟨second, parts⟩⟩
    · have empty : joinWith (" " ++ spec.name ++ " ") [] = [] := rfl
      rw [empty]
      refine .inl ⟨by simp [rendered], Sql.ReadsLeaf.parens ?_⟩
      exact Phrase.readsLeaf Draft.nil.weaken fun inner enclosed =>
        absurd (enclosed.unique .nil) (by simp)
    · exact .inr ⟨first, style, rendered, by simp [joinWith]⟩
    · exact .inl ⟨by simp [rendered], (operator_readsLeaf marks readable each).parens⟩
  · have opens : OpensCall p spec.name := by
      rcases style with style | ⟨code, style⟩ <;>
        simpa only [FunctionSpec.IsReadable, style] using readable
    refine .inl ⟨?_, (call_term opens value.phrase).readsLeaf⟩
    rcases style with style | ⟨code, style⟩ <;> simp [style]

omit marks in
theorem cast_readsLeaf {d : Dialect} (readable : d.Readable) {type : DataType} {arg : Result Sql}
    (h : Ensures (IsValue d.profile quoteNames) arg) :
    Ensures (Sql.ReadsLeaf d.profile quoteNames) (cast d type arg) := by
  intro s whole
  have marks := readable.legible.marks
  have value := cast_value readable h.condition s whole
  obtain ⟨name, a, -, rendered, rfl⟩ := cast_eq_ok.mp whole
  have enclosed := parens_value marks (h a rendered).phrase
  have colons : Lexer.plainTokens ("::" ++ name).toList ≠ [] := by
    rw [String.toList_append, Lexer.plainTokens_append_of_idle (by decide)]
    have first : Lexer.plainTokens "::".toList ≠ [] := by decide
    simp only [ne_eq, List.append_eq_nil_iff, first, false_and, not_false_eq_true]
  split at value
  · rename_i style
    rw [if_pos style]
    exact enclosed.append_readsLeaf value.phrase (by rwa [Sql.tokens_raw])
  · rename_i style
    rw [if_neg style]
    exact (IsTerm.ofRaw value.phrase (by decide)).readsLeaf

end Render

end

/-! ## Trees -/

/-- Whether the dialect writes the function between its arguments. -/
def Dialect.isOperator (d : Dialect) (name : String) : Bool :=
  match d.profile.functions.get? name with
  | some spec => spec.style == .operator
  | none => false

/-- The connectives of a condition, down to what is neither a connective nor a negation. -/
def Node.logic (d : Dialect) (n : Node) : Logic Node :=
  match n with
  | .and operands => .and (operands.map fun o => o.logic d)
  | .or operands => .or (operands.map fun o => o.logic d)
  | .not operand => .not (operand.logic d)
  | .function name [arg] =>
    if d.has .booleanLiterals && d.isOperator name then arg.logic d else .leaf (.function name [arg])
  | n => .leaf n
termination_by sizeOf n
decreasing_by all_goals exact Node.sizeOf_lt_of_mem_children (by simp_all [Node.children])

theorem Node.logic_leaf (d : Dialect) {n : Node}
    (other : n.kind ∉ [.and, .or, .not, .function]) : n.logic d = .leaf n := by
  cases n <;> simp_all [Node.kind, Node.logic]

/-- A function is a leaf, unless it is an infix operator with a single argument. -/
theorem Node.logic_function (d : Dialect) {name : String} {args : List Node}
    (other : d.isOperator name → args.length = 1 → d.has .booleanLiterals = false) :
    (Node.function name args).logic d = .leaf (.function name args) := by
  rcases args with _ | ⟨arg, _ | ⟨second, args⟩⟩
  · simp [Node.logic]
  · by_cases operator : d.isOperator name
    · simp [Node.logic, other operator rfl]
    · simp [Node.logic, operator]
  · simp [Node.logic]

example : (Builtin.postgreSql.build {}).isOperator "CONCAT" ∧
    (Builtin.mySql.build {}).isOperator "CONCAT" = false := by
  decide +kernel

/-- What the text of a condition is read as, where a condition is expected. -/
def Node.readBack (d : Dialect) (ctx : Context) (n : Node) : Option (Logic (List Item)) :=
  match asPredicate d n (node d ctx n) with
  | .ok s => Logic.reading.read d.profile (s.write d.profile ctx.quoteNames)
  | .error _ => none

/-- The items of a leaf. -/
def Node.leafItems (d : Dialect) (ctx : Context) (n : Node) : List Item :=
  match n.readBack d ctx with
  | some (.leaf items) => items
  | _ => []

section

variable {d : Dialect} {ctx : Context}

/-- An operand in a well-formed tree is rendered to a value. -/
theorem Node.WellPlaced.operand_value {quoteNames : Bool} (readable : d.Readable) {n : Node}
    (placed : n.WellPlaced) : ∀ c ∈ n.operands,
      Ensures (IsValue d.profile quoteNames) (asOperand d c (node d ctx c)) := by
  intro c member
  have child := Node.mem_children_of_mem_operands member
  exact Render.asOperand_value readable.legible.marks (placed.root.2 c member)
    (Render.node_rendered readable (placed.wellFormed.child child))

/-- What is neither a connective nor a function shows no connective. -/
theorem node_readsLeaf {quoteNames : Bool} (readable : d.Readable) {n : Node}
    (placed : n.WellPlaced) (expression : n.isExpression)
    (other : n.kind ∉ [.and, .or, .not, .function]) :
    Ensures (Sql.ReadsLeaf d.profile quoteNames) (node d ctx n) := by
  have unmarked := readable.unmarked
  have marks := readable.legible.marks
  have operand : ∀ c ∈ n.operands,
      Ensures (IsValue d.profile quoteNames) (asOperand d c (node d ctx c)) :=
    placed.operand_value readable
  have rendered : Ensures (Rendered d quoteNames n) (node d ctx n) :=
    Render.node_rendered readable placed.wellFormed
  have rules := placed.root.1
  cases n with
  | comparison op left right =>
    rw [Render.node_comparison unmarked]
    exact Render.comparison_readsLeaf marks rules
      (operand _ (by simp [Node.operands, Node.children]))
      (operand _ (by simp [Node.operands, Node.children]))
  | like expr pattern escape =>
    rw [Render.node_like unmarked]
    refine Render.like_readsLeaf marks (operand _ (by simp [Node.operands, Node.children]))
      (operand _ (by simp [Node.operands, Node.children])) ?_
    rw [Option.forall_mem_map]
    exact fun x given => operand x (by simp_all [Node.operands, Node.children])
  | regexpLike expr pattern =>
    rw [Render.node_regexpLike unmarked]
    intro s whole
    have values : ∀ r ∈ [asOperand d expr (node d ctx expr), asOperand d pattern (node d ctx pattern)],
        Ensures (IsValue d.profile quoteNames) r := by
      simp only [List.mem_cons, List.not_mem_nil, or_false, forall_eq_or_imp, forall_eq]
      exact ⟨operand _ (by simp [Node.operands, Node.children]),
        operand _ (by simp [Node.operands, Node.children])⟩
    rcases Render.apply_reads marks readable.regexp values (Render.regexpLike_eq_ok.mp whole).2 with
      ⟨-, leaf⟩ | ⟨a, -, single, -⟩
    · exact leaf
    · simp at single
  | between expr low high =>
    rw [Render.node_between unmarked]
    exact Render.between_readsLeaf (operand _ (by simp [Node.operands, Node.children]))
      (operand _ (by simp [Node.operands, Node.children]))
      (operand _ (by simp [Node.operands, Node.children]))
  | inList expr values =>
    rw [Render.node_inList unmarked]
    refine Render.inList_readsLeaf marks (operand _ (by simp [Node.operands, Node.children])) ?_
    rw [List.forall_mem_map]
    exact fun v member => operand v (by simp [Node.operands, Node.children, member])
  | inSubquery expr s =>
    rw [Render.node_inSubquery unmarked]
    exact Render.inSubquery_readsLeaf marks (operand _ (by simp [Node.operands]))
      ((Render.node_rendered readable (placed.wellFormed.child (by simp [Node.children]))).imp
        fun _ rendered => rendered.phrase)
  | isNull expr =>
    rw [Render.node_isNull unmarked]
    exact Render.isNull_readsLeaf marks (operand _ (by simp [Node.operands, Node.children]))
  | isNotNull expr =>
    rw [Render.node_isNotNull unmarked]
    exact Render.isNotNull_readsLeaf (operand _ (by simp [Node.operands, Node.children]))
  | cast arg type =>
    rw [Render.node_cast unmarked]
    exact Render.cast_readsLeaf readable (operand _ (by simp [Node.operands, Node.children]))
  | column c => exact rendered.imp fun _ known => (known.term rfl).readsLeaf
  | literal l => exact rendered.imp fun _ known => (known.term rfl).readsLeaf
  | extract part arg => exact rendered.imp fun _ known => (known.term rfl).readsLeaf
  | case basis branches otherwise => exact rendered.imp fun _ known => (known.term rfl).readsLeaf
  | aggregate name distinct args filter =>
    exact rendered.imp fun _ known => (known.term rfl).readsLeaf
  | groupConcat arg distinct order separator =>
    exact rendered.imp fun _ known => (known.term rfl).readsLeaf
  | window name args partition order frame =>
    exact rendered.imp fun _ known => (known.term rfl).readsLeaf
  | and _ | or _ | not _ | function _ _ => simp [Node.kind] at other
  | select _ | selectList _ | table _ | join _ _ _ _ | subSelect _ _ | groupBy _ | orderBy _
  | limit _ => simp [Node.isExpression, Node.kind, Kind.isExpression] at expression

/-- A function is a leaf, unless it is an infix operator with a single argument. -/
theorem function_reads {quoteNames : Bool} (readable : d.Readable) {name : String}
    {args : List Node} (placed : (Node.function name args).WellPlaced) {s : Sql}
    (rendered : node d ctx (.function name args) = .ok s) :
    (d.isOperator name → args.length ≠ 1) ∧ s.ReadsLeaf d.profile quoteNames ∨
      ∃ arg a, args = [arg] ∧ d.isOperator name ∧ asOperand d arg (node d ctx arg) = .ok a ∧
        s = Sql.parens a := by
  rw [Render.node_function readable.unmarked] at rendered
  obtain ⟨spec, found, rendered⟩ := Render.function_eq_ok.mp rendered
  have known : d.isOperator name ↔ spec.style = .operator := by simp [Dialect.isOperator, found]
  have values : ∀ r ∈ args.map fun a => asOperand d a (node d ctx a),
      Ensures (IsValue d.profile quoteNames) r := by
    rw [List.forall_mem_map]
    exact placed.operand_value readable
  rcases Render.apply_reads readable.legible.marks (readable.functions.get? found) values rendered
    with ⟨several, leaf⟩ | ⟨a, style, single, rfl⟩
  · exact .inl ⟨fun operator => by simpa using several (known.mp operator), leaf⟩
  · obtain ⟨arg, rfl, written⟩ := List.map_eq_singleton_iff.mp single
    exact .inr ⟨arg, a, rfl, known.mpr style, written, rfl⟩

/-- Where conditions are no values, no value shows a connective. -/
theorem operand_readsLeaf {quoteNames : Bool} (readable : d.Readable)
    (lacks : d.has .booleanLiterals = false) {n : Node} (placed : n.WellPlaced)
    (expression : n.isExpression) :
    Ensures (Sql.ReadsLeaf d.profile quoteNames) (asOperand d n (node d ctx n)) := by
  induction n using Node.induction with
  | step n ih =>
    intro s whole
    obtain ⟨t, rendered, rfl⟩ := Render.asOperand_eq_ok.mp whole
    have known : Rendered d quoteNames n t := Render.node_rendered readable placed.wellFormed t rendered
    have proper : n.kind ≠ .select := by
      intro same
      simp [Node.isExpression, same, Kind.isExpression] at expression
    unfold operandText
    rw [lacks, if_neg proper]
    split
    · exact (Render.truthCase_term readable.legible.marks known.phrase).readsLeaf
    · by_cases function : n.kind = .function
      · obtain ⟨name, args, rfl⟩ : ∃ name args, n = .function name args := by
          cases n <;> simp_all [Node.kind]
        rcases function_reads readable placed rendered with
          ⟨-, leaf⟩ | ⟨arg, a, rfl, -, written, rfl⟩
        · exact leaf
        · have child : arg ∈ (Node.function name [arg]).children := by simp [Node.children]
          exact (ih arg child (placed.child child) (placed.root.2 arg child) a written).parens
      · refine node_readsLeaf readable placed expression ?_ t rendered
        rename_i value
        cases n <;> simp_all [Node.kind, Node.isPredicate]

/-- The text of the node is read as its tree, each leaf of which is read by itself. -/
def ReadsTree (d : Dialect) (ctx : Context) (n : Node) (s : Sql) : Prop :=
  (∀ l ∈ (n.logic d).leaves, l.readBack d ctx = some (.leaf (l.leafItems d ctx))) ∧
    Logic.reading.ReadsOperand d.profile ctx.quoteNames n s
      ((n.logic d).eval Logic.connectives.joining fun l => .leaf (l.leafItems d ctx))

theorem ReadsTree.ofLeaf {n : Node} {s : Sql} (whole : n.logic d = .leaf n)
    (rendered : asPredicate d n (node d ctx n) = .ok s) {quiet : Bool}
    (phrase : Phrase d.profile ctx.quoteNames quiet s)
    (leaf : s.ReadsLeaf d.profile ctx.quoteNames) : ReadsTree d ctx n s := by
  obtain ⟨items, stands⟩ := leaf
  have read : n.readBack d ctx = some (.leaf items) := by
    rw [Node.readBack, rendered]
    exact stands.reads.read_eq phrase
  have same : n.leafItems d ctx = items := by rw [Node.leafItems, read]
  refine ⟨by simp [whole, Logic.leaves, read, same], .of ?_⟩
  rw [whole, Logic.eval, same]
  exact stands

/-- An infix operator with a single argument is read as the argument. -/
theorem ReadsTree.ofOperator {name : String} {arg : Node} {a : Sql}
    (has : d.has .booleanLiterals) (operator : d.isOperator name) (expression : arg.isExpression)
    (below : ∀ t, asPredicate d arg (node d ctx arg) = .ok t → ReadsTree d ctx arg t)
    (written : asOperand d arg (node d ctx arg) = .ok a) :
    ReadsTree d ctx (.function name [arg]) (Sql.parens a) := by
  have same : (Node.function name [arg]).logic d = arg.logic d := by
    simp [Node.logic, has, operator]
  have proper : arg.kind ≠ .select := by
    intro same
    simp [Node.isExpression, same, Kind.isExpression] at expression
  obtain ⟨t, rendered, rfl⟩ := Render.asOperand_eq_ok.mp written
  have whole : asPredicate d arg (node d ctx arg) = .ok t := by
    rw [← rendered]
    exact if_pos has
  obtain ⟨leaves, reads, -⟩ := below t whole
  rw [ReadsTree, same]
  refine ⟨leaves, .of ?_⟩
  unfold operandText
  rw [has, if_neg proper]
  split
  · exact reads.parens.reads.parens
  · exact reads.parens

/-- A leaf where a condition is expected. -/
theorem predicate_readsLeaf {quoteNames : Bool} (readable : d.Readable) {n : Node}
    (placed : n.WellPlaced) (expression : n.isExpression)
    (other : n.kind ∉ [.and, .or, .not, .function]) :
    Ensures (Sql.ReadsLeaf d.profile quoteNames) (asPredicate d n (node d ctx n)) := by
  have marks := readable.legible.marks
  intro s whole
  rcases Render.asPredicate_eq_ok whole with rendered |
    ⟨-, ⟨l, -, -, rfl⟩ | ⟨c, t, rfl, -, rendered, rfl⟩⟩
  · exact node_readsLeaf readable placed expression other s rendered
  · unfold Render.truthText
    split
    · exact (Render.const_term marks (by decide)).readsLeaf
    · exact (Render.const_term marks (by decide)).readsLeaf
  · have term : IsTerm d.profile quoteNames t :=
      (Render.node_rendered readable placed.wellFormed t rendered).term rfl
    have compared : Lexer.plainTokens " = 1".toList ≠ [] := by decide
    exact term.toIsValue.append_readsLeaf (term.phrase.const marks [] .within (by decide))
      (by rwa [Sql.tokens_raw])

/-- The operands of a connective show their trees. -/
theorem readsTree_operands {operands : List Node}
    (each : ∀ o ∈ operands, ∀ t, asPredicate d o (node d ctx o) = .ok t → ReadsTree d ctx o t)
    {word : String} {s : Sql} (whole : Render.connective word operands
      (operands.map fun o => asPredicate d o (node d ctx o)) = .ok s) :
    ∀ l ∈ operands.flatMap fun o => (o.logic d).leaves,
      l.readBack d ctx = some (.leaf (l.leafItems d ctx)) := by
  obtain ⟨parts, rendered, -⟩ := Render.connective_eq_ok.mp whole
  intro l member
  obtain ⟨o, listed, inside⟩ := List.mem_flatMap.mp member
  have written : asPredicate d o (node d ctx o) ∈ parts.map .ok :=
    rendered ▸ List.mem_map_of_mem listed
  obtain ⟨t, -, same⟩ := List.mem_map.mp written
  exact (each o listed t same.symm).1 l inside

/-- The text of a condition shows its tree. -/
theorem predicate_readsTree (readable : d.Readable) {n : Node} (placed : n.WellPlaced)
    (expression : n.isExpression) {s : Sql} (rendered : asPredicate d n (node d ctx n) = .ok s) :
    ReadsTree d ctx n s := by
  have unmarked := readable.unmarked
  have marks := readable.legible.marks
  induction n using Node.induction generalizing s with
  | step n ih =>
    have each : ∀ c ∈ n.operands, ∀ t, asPredicate d c (node d ctx c) = .ok t →
        ReadsTree d ctx c t := by
      intro c member t written
      have child := Node.mem_children_of_mem_operands member
      exact ih c child (placed.child child) (placed.root.2 c member) written
    have phrase : Phrase d.profile ctx.quoteNames false s :=
      Render.asPredicate_phrase marks (Render.node_rendered readable placed.wellFormed) s rendered
    by_cases other : n.kind ∉ [.and, .or, .not, .function]
    · exact .ofLeaf (Node.logic_leaf d other) rendered phrase
        (predicate_readsLeaf readable placed expression other s rendered)
    · clear ih
      have whole := rendered
      rw [Render.asPredicate_other (by rintro same; simp [same] at other)
        (by rintro same; simp [same] at other)] at whole
      cases n with
      | and operands =>
        rw [Render.node_and unmarked] at whole
        refine ⟨?_, ?_, by simp [Node.isConnective, Node.kind]⟩
        · rw [Node.logic, Logic.leaves, List.flatMap_map]
          exact readsTree_operands each whole
        · have reads := Interpretation.and_reads placed.root.1
            (fun o member t written => (each o member t written).2) whole
          rw [Node.logic, Logic.eval, List.map_map]
          exact reads
      | or operands =>
        rw [Render.node_or unmarked] at whole
        refine ⟨?_, ?_, by simp [Node.isConnective, Node.kind]⟩
        · rw [Node.logic, Logic.leaves, List.flatMap_map]
          exact readsTree_operands each whole
        · have reads := Interpretation.or_reads placed.root.1
            (fun o member t written => (each o member t written).2) whole
          rw [Node.logic, Logic.eval, List.map_map]
          exact reads
      | not operand =>
        rw [Render.node_not unmarked] at whole
        obtain ⟨c, written, rfl⟩ := Render.not_eq_ok.mp whole
        have below := each operand (by simp [Node.operands, Node.children]) c written
        rw [ReadsTree, Node.logic, Logic.leaves, Logic.eval]
        exact ⟨below.1, .of below.2.1.not⟩
      | function name args =>
        rcases function_reads readable placed whole with
          ⟨several, leaf⟩ | ⟨arg, a, rfl, operator, written, rfl⟩
        · refine .ofLeaf (Node.logic_function d fun operator => ?_) rendered phrase leaf
          exact fun single => absurd single (several operator)
        · have member : arg ∈ (Node.function name [arg]).operands := by
            simp [Node.operands, Node.children]
          by_cases has : d.has .booleanLiterals
          · exact .ofOperator has operator (placed.root.2 arg member) (each arg member) written
          · have lacks : d.has .booleanLiterals = false := by simpa using has
            have child := Node.mem_children_of_mem_operands member
            refine .ofLeaf (Node.logic_function d fun _ => ?_) rendered phrase
              (operand_readsLeaf readable lacks (placed.child child) (placed.root.2 arg member) a
                written).parens
            exact fun _ => lacks
      | _ => simp [Node.kind] at other

/-- What comes back is the tree without the connectives of a single operand. -/
theorem Node.readBack_eq (readable : d.Readable) {n : Node} (placed : n.WellPlaced)
    (expression : n.isExpression) {s : Sql} (rendered : asPredicate d n (node d ctx n) = .ok s) :
    n.readBack d ctx = some ((n.logic d).collapse.map fun l => l.leafItems d ctx) := by
  have phrase : Phrase d.profile ctx.quoteNames false s :=
    Render.asPredicate_phrase readable.legible.marks (Render.node_rendered readable placed.wellFormed) s rendered
  have reads := (predicate_readsTree readable placed expression rendered).2.1
  rw [Node.readBack, rendered, Logic.map, Logic.eval_collapse]
  exact reads.read_eq phrase

end

namespace Builtin

/-- Wherever a condition is rendered, its text is read back as the tree of its connectives without
those of a single operand, and each leaf of the tree is read back as a leaf. If the leaves in the
text are as true as those of the tree, so is the whole. -/
theorem predicate_readBack (b : Builtin) (notes : Notes) (mark : b = .generic → notes.NamesMark)
    (ctx : Context) {n : Node} (placed : n.WellPlaced) (expression : n.isExpression) {s : Sql}
    (rendered : asPredicate (b.build notes) n (node (b.build notes) ctx n) = .ok s) :
    ∃ f : Node → List Item,
      (∀ l ∈ (n.logic (b.build notes)).leaves,
        l.readBack (b.build notes) ctx = some (.leaf (f l))) ∧
      n.readBack (b.build notes) ctx = some ((n.logic (b.build notes)).collapse.map f) ∧
      ∀ (v : List Item → Truth) (w : Node → Truth),
        (∀ l ∈ (n.logic (b.build notes)).leaves, v (f l) = w l) →
        ((n.logic (b.build notes)).collapse.map f).truth v = (n.logic (b.build notes)).truth w := by
  have readable := b.readable notes mark
  refine ⟨fun l => l.leafItems (b.build notes) ctx,
    (predicate_readsTree readable placed expression rendered).1,
    Node.readBack_eq readable placed expression rendered, ?_⟩
  intro v w same
  rw [Logic.truth_map, Logic.truth_collapse]
  exact Logic.eval_congr same

/-- Nested connectives keep their parentheses, and the conjunction of one column vanishes. -/
theorem sqlServer_readBack_nested :
    let d := sqlServer.build {}
    let flag (name : String) : Node := .column { table := "T", name, type := { kind := .boolean } }
    let n : Node := .and [.or [.and [flag "A"], flag "B"], .not (flag "C")]
    (d.generate {} (some n)).toOption = some "((A = 1) OR B = 1) AND NOT (C = 1)" ∧
      ∃ f : Node → List Item, n.readBack d {} =
        some (.and [.or [.leaf (f (flag "A")), .leaf (f (flag "B"))],
          .not (.leaf (f (flag "C")))]) := by
  intro d flag n
  have words : ∀ word, word ∈ d.profile.reserved ↔ _ := fun _ => mem_sqlServer_reserved
  have generated : (d.generate {} (some n)).toOption =
      some "((A = 1) OR B = 1) AND NOT (C = 1)" := by
    rw [Dialect.generate_of_reserved words]
    decide +kernel
  obtain ⟨s, rendered⟩ : ∃ s, asPredicate d n (node d {} n) = .ok s := by
    rw [Render.asPredicate_other (by decide) (by decide)]
    cases whole : node d {} n with
    | ok s => exact ⟨s, rfl⟩
    | error e => simp [Dialect.generate, whole, Except.toOption] at generated
  have flags (name : String) (named : name ≠ "") : (flag name).WellPlaced ∧ (flag name).isExpression :=
    ⟨.column ⟨named, by simp⟩, rfl⟩
  have single : (Node.and [flag "A"]).WellPlaced :=
    .connective (by decide) (by simp [Node.children]) (by simp [Node.children, flags])
  have either : (Node.or [.and [flag "A"], flag "B"]).WellPlaced :=
    .connective (by decide) (by simp [Node.children]) (by simp [Node.children, flags, single]; rfl)
  have negated : (Node.not (flag "C")).WellPlaced :=
    .connective (by decide) (by simp [Node.children]) (by simp [Node.children, flags])
  have placed : n.WellPlaced :=
    .connective (by decide) (by simp [n, Node.children])
      (by simp [n, Node.children, either, negated]; exact ⟨rfl, rfl⟩)
  have unmarked : sqlServer = .generic → Notes.NamesMark {} := by simp
  obtain ⟨f, -, read, -⟩ := predicate_readBack .sqlServer {} unmarked {} placed rfl rendered
  refine ⟨generated, f, read.trans ?_⟩
  simp [n, flag, Node.logic, Logic.collapse, Logic.map, Logic.eval, Logic.connectives,
    Connectives.joining, Connectives.joined]

/-- The tree of connectives alone does not come back: an infix operator with a single argument
leaves no trace, so what is read is the disjunction inside it. Nor can a text be read at all in
which a parenthesis marks the names. -/
theorem operator_and_mark_hide_connectives :
    let d := postgreSql.build {}
    let flag (name : String) : Node := .column { table := "T", name, type := { kind := .boolean } }
    let leaf : Node := .function "CONCAT" [.or [flag "a", flag "b"]]
    let n : Node := .and [leaf, flag "c"]
    let g := generic.build { entries := [("identifierQuoteString", "(")] }
    (n.WellPlaced ∧ (d.generate {} (some n)).toOption = some "((a OR b)) AND c" ∧
      ∀ f : Node → List Item,
        n.readBack d {} ≠ some (Logic.map f (.and [.leaf leaf, .leaf (flag "c")]))) ∧
    (g.generate { quoteNames := true } (some (.not (flag "a")))).toOption = some "NOT ((a()" ∧
      ((Node.not (flag "a")).readBack g { quoteNames := true }).isNone := by
  intro d flag leaf n g
  have marked : (g.generate { quoteNames := true } (some (.not (flag "a")))).toOption =
      some "NOT ((a()" ∧ ((Node.not (flag "a")).readBack g { quoteNames := true }).isNone := by
    decide +kernel
  refine ⟨?_, marked⟩
  have words : ∀ word, word ∈ d.profile.reserved ↔ _ := fun _ => mem_postgreSql_reserved
  have generated : (d.generate {} (some n)).toOption = some "((a OR b)) AND c" := by
    rw [Dialect.generate_of_reserved words]
    decide +kernel
  obtain ⟨s, rendered⟩ : ∃ s, asPredicate d n (node d {} n) = .ok s := by
    rw [Render.asPredicate_other (by decide) (by decide)]
    cases whole : node d {} n with
    | ok s => exact ⟨s, rfl⟩
    | error e => simp [Dialect.generate, whole, Except.toOption] at generated
  have flags (name : String) (named : name ≠ "") : (flag name).WellPlaced ∧ (flag name).isExpression :=
    ⟨.column ⟨named, by simp⟩, rfl⟩
  have either : (Node.or [flag "a", flag "b"]).WellPlaced :=
    .connective (by decide) (by simp [Node.children]) (by simp [Node.children, flags])
  have call : leaf.WellPlaced := by
    refine Node.wellPlaced_iff.mpr ⟨⟨⟨"CONCAT", by decide⟩, ?_⟩, ?_⟩
    · simp [leaf, Node.Placed, Node.operands, Node.children]
      rfl
    · simpa [leaf, Node.children] using either
  have placed : n.WellPlaced :=
    .connective (by decide) (by simp [n, Node.children])
      (by simp [n, Node.children, call, flags]; rfl)
  have unnamed : postgreSql = .generic → Notes.NamesMark {} := by simp
  have read := Node.readBack_eq (postgreSql.readable {} unnamed) placed rfl rendered
  have shown : n.logic d = .and [.or [.leaf (flag "a"), .leaf (flag "b")], .leaf (flag "c")] := by
    have operator : d.isOperator "CONCAT" := by decide +kernel
    have has : d.has .booleanLiterals := by decide +kernel
    simp [n, leaf, flag, Node.logic, operator, has]
  refine ⟨placed, generated, fun f same => ?_⟩
  rw [read, shown] at same
  simp [Logic.collapse, Logic.map, Logic.eval, Logic.connectives, Connectives.joining,
    Connectives.joined] at same

end Builtin

end Pushdown

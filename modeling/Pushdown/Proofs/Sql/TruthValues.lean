import Pushdown.Proofs.Dialect.Reserved
import Pushdown.Proofs.Sql.Evaluation
import Pushdown.Proofs.Sql.Statement

/-!
# Truth values as numbers

A dialect without truth values writes them as numbers: 1 for true, 0 for false and NULL for unknown.
Whatever a condition over truth values is rendered to, its text comes out as true as the condition,
and where it stands as a value, it comes out as the number of its truth.
-/

namespace Pushdown

open Render (node asPredicate asOperand)

namespace Evaluation

variable {σ : List Token → Truth}

/-! ## Trees -/

section

variable {d : Dialect} {ctx : Context}

/-- The truth of a column, as `σ` gives it for the name that stands in the text. -/
def columnTruth (σ : List Token → Truth) (d : Dialect) (ctx : Context) (c : Column) : Truth :=
  σ ((Render.column d ctx c).tokens d.profile ctx.quoteNames)

/-- The node is rendered wherever it stands, and its text has the truth of the node. -/
structure Evaluates (σ : List Token → Truth) (d : Dialect) (ctx : Context) (n : Node) : Prop where
  value : ∃ s, asOperand d n (node d ctx n) = .ok s ∧ IsValue d.profile ctx.quoteNames s ∧
    Denotes σ d.profile ctx.quoteNames s (n.truth (columnTruth σ d ctx)).code
  condition : n.isNullLiteral = false → ∃ s, asPredicate d n (node d ctx n) = .ok s ∧
    Phrase d.profile ctx.quoteNames false s ∧
    (truth σ).ReadsOperand d.profile ctx.quoteNames n s (some (n.truth (columnTruth σ d ctx)))

/-- Rendered parts, each with a property. -/
theorem exists_parts {f : Node → Render.Result Sql} {P : Node → Sql → Prop} {os : List Node}
    (each : ∀ o ∈ os, ∃ s, f o = .ok s ∧ P o s) :
    ∃ parts, os.map f = parts.map .ok ∧ List.Forall₂ P os parts := by
  induction os with
  | nil => exact ⟨[], rfl, .nil⟩
  | cons o os ih =>
    obtain ⟨s, rendered, known⟩ := each o (by simp)
    obtain ⟨parts, rest, below⟩ := ih fun o member => each o (List.mem_cons_of_mem _ member)
    exact ⟨s :: parts, by simp [rendered, rest], .cons known below⟩

/-- What is no condition stands as a value as it is. -/
theorem asOperand_value {n : Node} (value : n.isPredicate = false) (proper : n.kind ≠ .select)
    {s : Sql} (rendered : node d ctx n = .ok s) : asOperand d n (node d ctx n) = .ok s := by
  refine Render.asOperand_eq_ok.mpr ⟨s, rendered, ?_⟩
  simp [Render.operandText, value, proper]

section

variable (unmarked : d.marked = []) (legible : d.profile.Legible)

include unmarked legible

theorem null_evaluates {l : Literal} (type : l.type = .null) : Evaluates σ d ctx (.literal l) := by
  have word : Lexer.plainTokens "NULL".toList = [.word "NULL"] := by decide
  have rendered : node d ctx (.literal l) = .ok (Sql.raw "NULL") := by
    simp [Render.node_literal unmarked, Render.literal, type]
  have denotes : Denotes σ d.profile ctx.quoteNames (Sql.raw "NULL") none :=
    .const word (by decide) (by rfl) (value?_constant (by decide))
  have term : IsTerm d.profile ctx.quoteNames (Sql.raw "NULL") :=
    Render.const_term legible.marks (by decide)
  refine ⟨⟨_, asOperand_value rfl (by simp [Node.kind]) rendered, term.toIsValue, ?_⟩, ?_⟩
  · simpa [Node.truth, type, Truth.code] using denotes
  · simp [Node.isNullLiteral, type]

variable (lacks : d.has .booleanLiterals = false)

include lacks

theorem column_evaluates {c : Column} (type : c.type.kind = .boolean) :
    Evaluates σ d ctx (.column c) := by
  have rendered : node d ctx (.column c) = .ok (Render.column d ctx c) :=
    Render.node_column unmarked c
  have term : IsTerm d.profile ctx.quoteNames (Render.column d ctx c) :=
    Render.column_term legible c
  have denotes : Denotes σ d.profile ctx.quoteNames (Render.column d ctx c)
      (columnTruth σ d ctx c).code := column_denotes legible ctx c
  have compared := comparison_standsAs .equal (by simp) denotes (digit_denotes true)
  rw [Truth.compare_one] at compared
  refine ⟨⟨_, asOperand_value rfl (by simp [Node.kind]) rendered, term.toIsValue, ?_⟩, fun _ =>
    ⟨Render.column d ctx c ++ Sql.raw " = 1", ?_, ?_, .of ?_⟩⟩
  · rw [Node.truth]
    exact denotes
  · simp [asPredicate, lacks, type, rendered]
  · exact term.condition.const legible.marks [] .within (by decide)
  · rw [Node.truth]
    refine compared.congr ?_
    have tokens : Lexer.plainTokens " = 1".toList =
      Lexer.plainTokens (" " ++ ComparisonOp.equal.symbol ++ " ").toList ++
        Lexer.plainTokens (digit true).toList := by decide
    simp only [Sql.tokens_append, Sql.tokens_raw, tokens, List.append_assoc]

theorem bool_evaluates {l : Literal} (type : l.type = .bool) : Evaluates σ d ctx (.literal l) := by
  have truth : (Node.literal l).truth (columnTruth σ d ctx) = some (decide (l.value = "true")) := by
    simp [Node.truth, type]
  have rendered : node d ctx (.literal l) = .ok (Sql.raw (digit (l.value = "true"))) := by
    simp [Render.node_literal unmarked, Render.literal, type, lacks, digit]
  have steps : ∀ b, (isStep true [] .apart (digit b) [] .within && isNamed (digit b)) ∧
      isStep false [] .apart ("1 = " ++ digit b) [] .within := by decide
  obtain ⟨step, compared⟩ := steps (l.value = "true")
  have term : IsTerm d.profile ctx.quoteNames (Sql.raw (digit (l.value = "true"))) :=
    Render.const_term legible.marks step
  refine ⟨⟨_, asOperand_value rfl (by simp [Node.kind]) rendered, term.toIsValue, ?_⟩, fun _ =>
    ⟨Sql.raw ("1 = " ++ digit (l.value = "true")), ?_, ?_, .of ?_⟩⟩
  · rw [truth]
    exact digit_denotes _
  · by_cases value : l.value = "true" <;> simp [asPredicate, lacks, type, digit, value]
  · exact Draft.ofConst legible.marks [] .within compared
  · rw [truth]
    exact digit_standsAs _

omit unmarked in
/-- A condition that stands as a value is wrapped into a CASE. -/
theorem Evaluates.ofCondition {n : Node} (predicate : n.isPredicate) {s : Sql}
    (rendered : node d ctx n = .ok s) {quiet : Bool}
    (phrase : Phrase d.profile ctx.quoteNames quiet s)
    (reads : (truth σ).ReadsOperand d.profile ctx.quoteNames n s
      (some (n.truth (columnTruth σ d ctx)))) : Evaluates σ d ctx n := by
  refine ⟨⟨Render.truthCase s, Render.asOperand_eq_ok.mpr ⟨s, rendered, ?_⟩,
    (Render.truthCase_term legible.marks phrase.unquiet).toIsValue, truthCase_denotes reads.1⟩,
    fun _ => ⟨s, ?_, phrase.unquiet, reads⟩⟩
  · simp [Render.operandText, predicate, lacks]
  · rw [Render.asPredicate_other, rendered]
    · intro same
      simp [Node.isPredicate, same] at predicate
    · intro same
      simp [Node.isPredicate, same] at predicate

omit unmarked legible lacks in
theorem Evaluates.operand {n : Node} (h : Evaluates σ d ctx n) :
    Render.Ensures (IsValue d.profile ctx.quoteNames) (asOperand d n (node d ctx n)) := by
  obtain ⟨s, rendered, value, -⟩ := h.value
  intro t same
  rw [rendered] at same
  cases same
  exact value

theorem comparison_evaluates {op : ComparisonOp} (known : ∀ symbol, op ≠ .other symbol)
    {left right : Node} (hl : Evaluates σ d ctx left) (hr : Evaluates σ d ctx right) :
    Evaluates σ d ctx (.comparison op left right) := by
  obtain ⟨l, leftRendered, -, leftDenotes⟩ := hl.value
  obtain ⟨r, rightRendered, -, rightDenotes⟩ := hr.value
  have phrase := Render.comparison_phrase legible.marks known hl.operand.quiet hr.operand.quiet
  have rendered : Render.comparison op (asOperand d left (node d ctx left))
      (asOperand d right (node d ctx right)) = .ok (l ++ Sql.raw (" " ++ op.symbol ++ " ") ++ r) :=
    Render.comparison_eq_ok.mpr ⟨l, r, leftRendered, rightRendered, rfl⟩
  have stands := comparison_standsAs op known leftDenotes rightDenotes
  rw [Truth.compare_code] at stands
  refine .ofCondition legible lacks rfl ((Render.node_comparison unmarked ..).trans rendered)
    (phrase _ rendered) (.of ?_)
  rw [Node.truth]
  exact stands

theorem between_evaluates {expr low high : Node} (he : Evaluates σ d ctx expr)
    (hl : Evaluates σ d ctx low) (hh : Evaluates σ d ctx high) :
    Evaluates σ d ctx (.between expr low high) := by
  obtain ⟨e, exprRendered, -, exprDenotes⟩ := he.value
  obtain ⟨l, lowRendered, -, lowDenotes⟩ := hl.value
  obtain ⟨h, highRendered, -, highDenotes⟩ := hh.value
  have phrase := Render.between_phrase legible.marks he.operand.condition hl.operand.condition
    hh.operand.condition
  have rendered : Render.between (asOperand d expr (node d ctx expr))
      (asOperand d low (node d ctx low)) (asOperand d high (node d ctx high)) =
        .ok (e ++ Sql.raw " BETWEEN " ++ l ++ Sql.raw " AND " ++ h) :=
    Render.between_eq_ok.mpr ⟨e, l, h, exprRendered, lowRendered, highRendered, rfl⟩
  have stands := between_standsAs exprDenotes lowDenotes highDenotes
  rw [Truth.compare_code, Truth.compare_code] at stands
  refine .ofCondition legible lacks rfl ((Render.node_between unmarked ..).trans rendered)
    (phrase _ rendered) (.of ?_)
  rw [Node.truth]
  exact stands

theorem inList_evaluates {expr : Node} {values : List Node} (nonempty : values ≠ [])
    (he : Evaluates σ d ctx expr) (each : ∀ v ∈ values, Evaluates σ d ctx v) :
    Evaluates σ d ctx (.inList expr values) := by
  obtain ⟨e, exprRendered, -, exprDenotes⟩ := he.value
  obtain ⟨parts, valuesRendered, partsDenote⟩ := exists_parts fun v member => (each v member).value
  have phrase := Render.inList_phrase legible.marks he.operand.quiet
    (List.forall_mem_map.mpr fun v member => (each v member).operand.condition)
  have rendered : Render.inList (asOperand d expr (node d ctx expr))
      (values.map fun v => asOperand d v (node d ctx v)) =
        .ok (e ++ Sql.raw " IN (" ++ Sql.joinWith ", " parts ++ Sql.raw ")") :=
    Render.inList_eq_ok.mpr ⟨e, parts, exprRendered, valuesRendered, rfl⟩
  have denote : List.Forall₂ (Denotes σ d.profile ctx.quoteNames) parts
      (values.map fun v => (v.truth (columnTruth σ d ctx)).code) := by
    rw [List.forall₂_map_right_iff]
    exact (partsDenote.imp fun v s known => known.2).flip
  have stands := inList_standsAs exprDenotes (by simpa using nonempty) denote
  rw [List.map_map] at stands
  refine .ofCondition legible lacks rfl ((Render.node_inList unmarked ..).trans rendered)
    (phrase _ rendered) (.of ?_)
  simp only [Function.comp_def, Truth.compare_code] at stands
  rw [Node.truth]
  exact stands

theorem isNull_evaluates {expr : Node} (he : Evaluates σ d ctx expr) :
    Evaluates σ d ctx (.isNull expr) := by
  obtain ⟨e, exprRendered, -, exprDenotes⟩ := he.value
  have phrase := Render.isNull_phrase legible.marks he.operand.quiet
  have rendered : Render.isNull (asOperand d expr (node d ctx expr)) =
      .ok (e ++ Sql.raw " IS NULL") := Render.isNull_eq_ok.mpr ⟨e, exprRendered, rfl⟩
  have stands := isNull_standsAs exprDenotes
  rw [Truth.isNone_code] at stands
  refine .ofCondition legible lacks rfl ((Render.node_isNull unmarked ..).trans rendered)
    (phrase _ rendered) (.of ?_)
  rw [Node.truth]
  exact stands

theorem isNotNull_evaluates {expr : Node} (he : Evaluates σ d ctx expr) :
    Evaluates σ d ctx (.isNotNull expr) := by
  obtain ⟨e, exprRendered, -, exprDenotes⟩ := he.value
  have phrase := Render.isNotNull_phrase legible.marks he.operand.condition
  have rendered : Render.isNotNull (asOperand d expr (node d ctx expr)) =
      .ok (e ++ Sql.raw " IS NOT NULL") := Render.isNotNull_eq_ok.mpr ⟨e, exprRendered, rfl⟩
  have stands := isNotNull_standsAs exprDenotes
  rw [Truth.isSome_code] at stands
  refine .ofCondition legible lacks rfl ((Render.node_isNotNull unmarked ..).trans rendered)
    (phrase _ rendered) (.of ?_)
  rw [Node.truth]
  exact stands

theorem not_evaluates {operand : Node} (proper : operand.isNullLiteral = false)
    (h : Evaluates σ d ctx operand) : Evaluates σ d ctx (.not operand) := by
  obtain ⟨c, conditionRendered, conditionPhrase, reads⟩ := h.condition proper
  have rendered : Render.not (asPredicate d operand (node d ctx operand)) =
      .ok (Sql.raw "NOT (" ++ c ++ Sql.raw ")") :=
    Render.not_eq_ok.mpr ⟨c, conditionRendered, rfl⟩
  have phrase : Phrase d.profile ctx.quoteNames false (Sql.raw "NOT (" ++ c ++ Sql.raw ")") := by
    refine Render.not_phrase legible.marks ?_ _ rendered
    rw [conditionRendered]
    rintro _ ⟨⟩
    exact conditionPhrase
  refine .ofCondition legible lacks rfl ((Render.node_not unmarked ..).trans rendered) phrase
    (.of ?_)
  rw [Node.truth]
  exact reads.1.not

omit unmarked in
/-- A conjunction or disjunction is as true as its operands make it. -/
theorem connective_evaluates {word : String} {operands : List Node} {n : Node}
    (predicate : n.isPredicate) (connective : n.isConnective)
    (step : Phrase.isSeparator false (" " ++ word ++ " "))
    (shape : node d ctx n = Render.connective word operands
      (operands.map fun o => asPredicate d o (node d ctx o)))
    (proper : ∀ o ∈ operands, o.isNullLiteral = false)
    (each : ∀ o ∈ operands, Evaluates σ d ctx o)
    (reads : ∀ s, Render.connective word operands
        (operands.map fun o => asPredicate d o (node d ctx o)) = .ok s →
      (∀ o ∈ operands, ∀ t, asPredicate d o (node d ctx o) = .ok t →
        (truth σ).ReadsOperand d.profile ctx.quoteNames o t
          (some (o.truth (columnTruth σ d ctx)))) →
      (truth σ).Reads d.profile ctx.quoteNames s (some (n.truth (columnTruth σ d ctx)))) :
    Evaluates σ d ctx n := by
  have conditions : ∀ o ∈ operands, ∃ t, asPredicate d o (node d ctx o) = .ok t ∧
      Phrase d.profile ctx.quoteNames false t ∧ (truth σ).ReadsOperand d.profile ctx.quoteNames o t
        (some (o.truth (columnTruth σ d ctx))) := fun o member =>
    (each o member).condition (proper o member)
  obtain ⟨parts, partsRendered, -⟩ := exists_parts conditions
  have rendered : Render.connective word operands
      (operands.map fun o => asPredicate d o (node d ctx o)) =
        .ok (Render.connect word (operands.zip parts)) :=
    Render.connective_eq_ok.mpr ⟨parts, partsRendered, rfl⟩
  have phrases : ∀ r ∈ operands.map fun o => asPredicate d o (node d ctx o),
      Render.Ensures (Phrase d.profile ctx.quoteNames false) r := by
    rw [List.forall_mem_map]
    intro o member s same
    obtain ⟨t, written, phrase, -⟩ := conditions o member
    rw [written] at same
    cases same
    exact phrase
  refine .ofCondition legible lacks predicate (shape.trans rendered)
    (Render.connective_phrase legible.marks step phrases _ rendered) ⟨reads _ rendered ?_, ?_⟩
  · intro o member t written
    obtain ⟨u, same, -, known⟩ := conditions o member
    rw [written] at same
    cases same
    exact known
  · rw [connective]
    exact fun other => absurd other (by simp)

/-- Conditions over truth values keep their truth, by induction over the condition. -/
theorem evaluates {n : Node} (boolean : n.IsBoolean) (wellFormed : n.WellFormed) :
    Evaluates σ d ctx n := by
  induction boolean with
  | column type => exact column_evaluates unmarked legible lacks type
  | literal type => exact bool_evaluates unmarked legible lacks type
  | null type => exact null_evaluates unmarked legible type
  | @and operands _ proper ih =>
    have below := fun o member => ih o member (wellFormed.child member)
    refine connective_evaluates legible lacks rfl rfl (by decide) (Render.node_and unmarked _)
      proper below fun s rendered each => ?_
    have reads := Interpretation.and_reads wellFormed.root each rendered
    have joined : Connectives.joined (truth σ).and _ = _ :=
      joined_mapM Truth.all_singleton (Node.truth (columnTruth σ d ctx)) operands
    rwa [joined, ← Node.truth] at reads
  | @or operands _ proper ih =>
    have below := fun o member => ih o member (wellFormed.child member)
    refine connective_evaluates legible lacks rfl rfl (by decide) (Render.node_or unmarked _)
      proper below fun s rendered each => ?_
    have reads := Interpretation.or_reads wellFormed.root each rendered
    have joined : Connectives.joined (truth σ).or _ = _ :=
      joined_mapM Truth.any_singleton (Node.truth (columnTruth σ d ctx)) operands
    rwa [joined, ← Node.truth] at reads
  | not _ proper ih =>
    exact not_evaluates unmarked legible lacks proper
      (ih (wellFormed.child (by simp [Node.children])))
  | comparison _ _ left right =>
    exact comparison_evaluates unmarked legible lacks wellFormed.root
      (left (wellFormed.child (by simp [Node.children])))
      (right (wellFormed.child (by simp [Node.children])))
  | between _ _ _ expr low high =>
    exact between_evaluates unmarked legible lacks
      (expr (wellFormed.child (by simp [Node.children])))
      (low (wellFormed.child (by simp [Node.children])))
      (high (wellFormed.child (by simp [Node.children])))
  | inList _ _ expr each =>
    exact inList_evaluates unmarked legible lacks wellFormed.root
      (expr (wellFormed.child (by simp [Node.children])))
      fun v member => each v member (wellFormed.child (by simp [Node.children, member]))
  | isNull _ ih =>
    exact isNull_evaluates unmarked legible lacks
      (ih (wellFormed.child (by simp [Node.children])))
  | isNotNull _ ih =>
    exact isNotNull_evaluates unmarked legible lacks
      (ih (wellFormed.child (by simp [Node.children])))

end

end

end Evaluation

/-- In a dialect without truth values, a condition over truth values is rendered wherever it stands.
With 1, 0 and NULL in the columns, its text is as true as the condition, and as a value it comes to
the number of its truth. -/
theorem Dialect.generate_keeps_truth {d : Dialect} (unmarked : d.marked = [])
    (legible : d.profile.Legible) (lacks : d.has .booleanLiterals = false) (ctx : Context)
    {n : Node} (boolean : n.IsBoolean) (wellFormed : n.WellFormed) (ρ : Column → Truth)
    (σ : List Token → Truth)
    (named : ∀ c, .column c ∈ n.nodes → Evaluation.columnTruth σ d ctx c = ρ c) :
    (n.isPredicate → ∃ text, d.generate ctx (some n) = .ok text ∧
      Evaluation.readTruth? σ d.profile text = some (n.truth ρ)) ∧
    (n.isNullLiteral = false → ∃ s, asPredicate d n (node d ctx n) = .ok s ∧
      Evaluation.readTruth? σ d.profile (s.write d.profile ctx.quoteNames) = some (n.truth ρ)) ∧
    ∃ s, asOperand d n (node d ctx n) = .ok s ∧
      Evaluation.readValue? σ d.profile (s.write d.profile ctx.quoteNames) =
        some (n.truth ρ).code := by
  have evaluates : Evaluation.Evaluates σ d ctx n :=
    Evaluation.evaluates unmarked legible lacks boolean wellFormed
  have same : n.truth ρ = n.truth (Evaluation.columnTruth σ d ctx) :=
    Node.truth_congr fun c member => (named c member).symm
  have condition : n.isNullLiteral = false → ∃ s, asPredicate d n (node d ctx n) = .ok s ∧
      Evaluation.readTruth? σ d.profile (s.write d.profile ctx.quoteNames) =
        some (n.truth ρ) := by
    intro proper
    obtain ⟨s, rendered, phrase, reads⟩ := evaluates.condition proper
    refine ⟨s, rendered, ?_⟩
    rw [Evaluation.readTruth?, reads.1.read_eq phrase, same]
    rfl
  refine ⟨fun predicate => ?_, condition, ?_⟩
  · have literal : n.kind ≠ .literal := by
      intro same
      simp [Node.isPredicate, same] at predicate
    have column : n.kind ≠ .column := by
      intro same
      simp [Node.isPredicate, same] at predicate
    have proper : n.isNullLiteral = false := by
      cases n <;> simp_all [Node.isNullLiteral, Node.kind]
    obtain ⟨s, rendered, read⟩ := condition proper
    rw [Render.asPredicate_other literal column] at rendered
    exact ⟨_, by simp [Dialect.generate, rendered], read⟩
  · obtain ⟨s, rendered, value, items, found, -, denotes⟩ := evaluates.value
    refine ⟨s, rendered, ?_⟩
    simp [Evaluation.readValue?, value.phrase.scanned, found.grouped.items?_eq, denotes, same]

/-- An unknown truth value comes out of nested conditions as NULL. -/
theorem Builtin.sqlServer_keeps_unknown :
    let d := sqlServer.build {}
    let flag (name : String) : Column := { table := "T", name, type := { kind := .boolean } }
    let n : Node := .or [.comparison .less (.column (flag "A")) (.not (.column (flag "B"))),
      .inList (.column (flag "A"))
        [.literal { type := .null, value := "" }, .isNull (.column (flag "B"))]]
    let σ : List Token → Truth := fun ts => if ts = [.word "A"] then some false else none
    let text := "A < CASE WHEN NOT (B = 1) THEN 1 WHEN NOT (NOT (B = 1)) THEN 0 END OR " ++
      "A IN (NULL, CASE WHEN B IS NULL THEN 1 WHEN NOT (B IS NULL) THEN 0 END)"
    (d.generate {} (some n)).toOption = some text ∧
      Evaluation.readTruth? σ d.profile text = some none := by
  intro d flag n σ text
  have words : ∀ word, word ∈ d.profile.reserved ↔ _ := fun _ => Builtin.mem_sqlServer_reserved
  have generated : (d.generate {} (some n)).toOption = some text := by
    rw [Dialect.generate_of_reserved words]
    decide +kernel
  have unnamed : sqlServer = .generic → Notes.NamesMark {} := by simp
  have readable := sqlServer.readable {} unnamed
  have column (name : String) : (Node.column (flag name)).IsBoolean := .column rfl
  have boolean : n.IsBoolean := by
    refine .or ?_ (by simp [Node.isNullLiteral])
    simp only [List.mem_cons, List.not_mem_nil, or_false, forall_eq_or_imp, forall_eq]
    refine ⟨.comparison (column _) (.not (column _) rfl), .inList (column _) ?_⟩
    simp only [List.mem_cons, List.not_mem_nil, or_false, forall_eq_or_imp, forall_eq]
    exact ⟨.null rfl, .isNull (column _)⟩
  have nodes : n.nodes = [n, .comparison .less (.column (flag "A")) (.not (.column (flag "B"))),
      .column (flag "A"), .not (.column (flag "B")), .column (flag "B"),
      .inList (.column (flag "A"))
        [.literal { type := .null, value := "" }, .isNull (.column (flag "B"))],
      .column (flag "A"), .literal { type := .null, value := "" }, .isNull (.column (flag "B")),
      .column (flag "B")] := by
    simp [n, Node.nodes_eq, Node.children]
  have wellFormed : n.WellFormed := by
    rw [Node.WellFormed, Node.Everywhere, nodes]
    simp [n, flag, Node.KeepsRules, Literal.KeepsFormat]
  have bare : ∀ name ∈ ["A", "B"], d.profile.needsQuotes name = false := by
    simp only [← Profile.needsQuotes_of_reserved words]
    decide +kernel
  have names : ∀ name ∈ ["A", "B"], Evaluation.columnTruth σ d {} (flag name) =
      if name = "A" then some false else none := by
    simp [Evaluation.columnTruth, Render.column, flag, Sql.tokens, Fragment.tokens, bare, σ]
  have named : ∀ c, .column c ∈ n.nodes → Evaluation.columnTruth σ d {} c =
      if c.name = "A" then some false else none := by
    rw [nodes]
    intro c member
    simp only [n, List.mem_cons, reduceCtorEq, false_or, Node.column.injEq, List.not_mem_nil,
      or_false] at member
    rcases member with rfl | rfl | rfl | rfl
    · exact names "A" (by simp)
    · exact names "B" (by simp)
    · exact names "A" (by simp)
    · exact names "B" (by simp)
  obtain ⟨found, same, read⟩ := (Dialect.generate_keeps_truth readable.unmarked readable.legible
    (by decide +kernel) {} boolean wellFormed _ σ named).1 rfl
  have shown : n.truth (fun c => if c.name = "A" then some false else none) = none := by
    simp [n, flag, Node.truth, ComparisonOp.compare, Truth.any]
  rw [same] at generated
  cases generated
  exact ⟨by rw [same]; rfl, shown ▸ read⟩

end Pushdown

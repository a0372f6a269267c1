import Pushdown.Proofs.Sql.Leaf
import Pushdown.Proofs.Sql.Parts

/-!
# Statements as phrases

Whatever is rendered in a readable dialect from a well-formed tree is a phrase, and where a value
is expected it is a value. Each function of the renderer puts phrases together to a phrase; the
induction over the tree then needs no more than that. Whatever a construct puts in brackets may be
any phrase, so the construct is a value no matter what its parts are.
-/

namespace Pushdown.Render

open Sql (raw joinWith parens)

/-- Whatever is rendered has the property. -/
def Ensures (P : Sql → Prop) (r : Result Sql) : Prop := ∀ s, r = .ok s → P s

namespace Ensures

variable {P Q : Sql → Prop}

theorem imp {r : Result Sql} (h : Ensures P r) (weaker : ∀ s, P s → Q s) : Ensures Q r :=
  fun s rendered => weaker s (h s rendered)

theorem parts {rs : List (Result Sql)} {ts : List Sql} (h : ∀ r ∈ rs, Ensures P r)
    (rendered : rs = ts.map .ok) : ∀ t ∈ ts, P t := by
  intro t member
  exact h (.ok t) (rendered ▸ List.mem_map_of_mem member) t rfl

theorem part {r : Option (Result Sql)} {t : Option Sql} (h : ∀ part ∈ r, Ensures P part)
    (rendered : r = t.map .ok) : ∀ u ∈ t, P u := by
  rintro u rfl
  exact h (.ok u) rendered u rfl

variable {p : Profile} {quoteNames : Bool} {r : Result Sql}

/-- A value has nothing at its top level that groups conditions. -/
theorem quiet (h : Ensures (IsValue p quoteNames) r) : Ensures (Phrase p quoteNames true) r :=
  h.imp fun _ value => value.phrase

/-- A value may stand where a condition is expected. -/
theorem condition (h : Ensures (IsValue p quoteNames) r) : Ensures (Phrase p quoteNames false) r :=
  h.imp fun _ value => value.condition

end Ensures

section

variable {d : Dialect} {quoteNames : Bool}

/-- What stands in parentheses is a value if it is a phrase. -/
theorem parens_nonempty {p : Profile} {t : Sql} (h : Phrase p quoteNames true (parens t)) :
    IsValue p quoteNames (parens t) := by
  refine ⟨h, ?_⟩
  have opening : Lexer.plainTokens "(".toList = [.symbol '('] := by decide
  simp only [parens, raw, List.cons_append, Sql.tokens_cons, Fragment.tokens, opening]
  simp

theorem parens_value {p : Profile} (marks : Lexer.HasMarks p) {quiet : Bool} {t : Sql}
    (h : Phrase p quoteNames quiet t) : IsValue p quoteNames (parens t) :=
  parens_nonempty (h.parens marks).weaken

/-! ## Positions -/

theorem truthCase_term {p : Profile} (marks : Lexer.HasMarks p) {t : Sql}
    (h : Phrase p quoteNames false t) : IsTerm p quoteNames (truthCase t) := by
  unfold truthCase
  refine .ofRaw ?_ (by decide)
  have first : Draft p quoteNames true [] [.case] .within (raw "CASE WHEN " ++ t) :=
    (Draft.ofConst marks [.case] .apart (by decide)).part h (by simp)
  have second : Draft p quoteNames true [] [.paren, .case] .within
      (raw "CASE WHEN " ++ t ++ raw " THEN 1 WHEN NOT (" ++ t) :=
    (first.const marks [.paren, .case] .apart (by decide)).part h (by simp)
  exact second.const marks [] .within (by decide)

/-- Whether nodes of the kind are values that never begin with a parenthesis. -/
def isTermKind : Kind → Bool
  | .column | .literal | .extract | .case | .aggregate | .groupConcat | .window => true
  | _ => false

/-- What a node is rendered to. -/
structure Rendered (d : Dialect) (quoteNames : Bool) (n : Node) (s : Sql) : Prop where
  phrase : Phrase d.profile quoteNames false s
  value : n.isExpression → n.isPredicate = false → IsValue d.profile quoteNames s
  term : isTermKind n.kind → IsTerm d.profile quoteNames s

theorem asOperand_value (marks : Lexer.HasMarks d.profile) {n : Node} {r : Result Sql}
    (expression : n.isExpression) (h : Ensures (Rendered d quoteNames n) r) :
    Ensures (IsValue d.profile quoteNames) (asOperand d n r) := by
  intro s whole
  obtain ⟨t, rendered, rfl⟩ := asOperand_eq_ok.mp whole
  have known := h t rendered
  unfold operandText
  split
  · split
    · exact parens_value marks known.phrase
    · exact (truthCase_term marks known.phrase).toIsValue
  · rename_i value
    split
    · exact parens_value marks known.phrase
    · exact known.value expression (by simpa using value)

theorem asOperand_phrase (marks : Lexer.HasMarks d.profile) {n : Node} {r : Result Sql}
    (h : Ensures (Rendered d quoteNames n) r) :
    Ensures (Phrase d.profile quoteNames false) (asOperand d n r) := by
  intro s whole
  obtain ⟨t, rendered, rfl⟩ := asOperand_eq_ok.mp whole
  have phrase := (h t rendered).phrase
  unfold operandText
  split
  · split
    · exact (parens_value marks phrase).condition
    · exact (truthCase_term marks phrase).condition
  · split
    · exact (parens_value marks phrase).condition
    · exact phrase

theorem truthText_phrase {p : Profile} (marks : Lexer.HasMarks p) (l : Literal) :
    Phrase p quoteNames false (truthText l) := by
  unfold truthText
  split
  · exact Draft.ofConst marks [] .within (by decide)
  · exact Draft.ofConst marks [] .within (by decide)

theorem asPredicate_phrase (marks : Lexer.HasMarks d.profile) {n : Node} {r : Result Sql}
    (h : Ensures (Rendered d quoteNames n) r) :
    Ensures (Phrase d.profile quoteNames false) (asPredicate d n r) := by
  intro s whole
  rcases asPredicate_eq_ok whole with rendered | ⟨-, ⟨l, -, -, rfl⟩ | ⟨c, t, -, -, rendered, rfl⟩⟩
  · exact (h s rendered).phrase
  · exact truthText_phrase marks l
  · exact (h t rendered).phrase.const marks [] .within (by decide)

/-! ## Predicates -/

section

variable {p : Profile} {quiet : Bool} (marks : Lexer.HasMarks p)

include marks

theorem connect_phrase {word : String} (step : Phrase.isSeparator false (" " ++ word ++ " "))
    {conditions : List (Node × Sql)} (h : ∀ c ∈ conditions, Phrase p quoteNames false c.2) :
    Phrase p quoteNames false (connect word conditions) := by
  refine Phrase.joinWith marks step fun t member => ?_
  obtain ⟨⟨n, u⟩, inside, rfl⟩ := List.mem_map.mp member
  have phrase : Phrase p quoteNames false u := h _ inside
  simp only
  split
  · exact (parens_value marks phrase).condition
  · exact phrase

theorem connective_phrase {word : String} (step : Phrase.isSeparator false (" " ++ word ++ " "))
    {operands : List Node} {conditions : List (Result Sql)}
    (h : ∀ r ∈ conditions, Ensures (Phrase p quoteNames false) r) :
    Ensures (Phrase p quoteNames false) (connective word operands conditions) := by
  intro s whole
  obtain ⟨parts, rendered, rfl⟩ := connective_eq_ok.mp whole
  have each := Ensures.parts h rendered
  exact connect_phrase marks step fun c member => each c.2 (List.of_mem_zip member).2

theorem not_phrase {condition : Result Sql} (h : Ensures (Phrase p quoteNames false) condition) :
    Ensures (Phrase p quoteNames false) (not condition) := by
  intro s whole
  obtain ⟨c, rendered, rfl⟩ := not_eq_ok.mp whole
  have opened : Draft p quoteNames false [] [.paren] .within (raw "NOT (" ++ c) :=
    (Draft.ofConst marks [.paren] .apart (by decide)).part (h c rendered) (by simp)
  exact opened.const marks [] .within (by decide)

omit marks in
theorem comparison_step {op : ComparisonOp} (known : ∀ symbol, op ≠ .other symbol) :
    isStep quiet [] .within (" " ++ op.symbol ++ " ") [] .apart := by
  cases op with
  | other symbol => exact absurd rfl (known symbol)
  | _ => cases quiet <;> decide

theorem comparison_phrase {op : ComparisonOp} (known : ∀ symbol, op ≠ .other symbol)
    {left right : Result Sql} (hl : Ensures (Phrase p quoteNames quiet) left)
    (hr : Ensures (Phrase p quoteNames quiet) right) :
    Ensures (Phrase p quoteNames quiet) (comparison op left right) := by
  intro s whole
  obtain ⟨l, r, leftRendered, rightRendered, rfl⟩ := comparison_eq_ok.mp whole
  have compared := (hl l leftRendered).const marks [] .apart (comparison_step known)
  exact compared.part (hr r rightRendered) (by simp)

theorem like_phrase {expr pattern : Result Sql} {escape : Option (Result Sql)}
    (he : Ensures (Phrase p quoteNames quiet) expr)
    (hp : Ensures (Phrase p quoteNames quiet) pattern)
    (hx : ∀ r ∈ escape, Ensures (Phrase p quoteNames quiet) r) :
    Ensures (Phrase p quoteNames quiet) (like expr pattern escape) := by
  intro s whole
  obtain ⟨e, t, x, exprRendered, patternRendered, escapeRendered, rfl⟩ := like_eq_ok.mp whole
  have matched : Phrase p quoteNames quiet (e ++ raw " LIKE " ++ t) :=
    ((he e exprRendered).const marks [] .apart (by cases quiet <;> decide)).part
      (hp t patternRendered) (by simp)
  exact Phrase.clause marks matched " ESCAPE " (by cases quiet <;> decide)
    (Ensures.part hx escapeRendered) (by simp)

theorem between_phrase {expr low high : Result Sql} (he : Ensures (Phrase p quoteNames false) expr)
    (hl : Ensures (Phrase p quoteNames false) low)
    (hh : Ensures (Phrase p quoteNames false) high) :
    Ensures (Phrase p quoteNames false) (between expr low high) := by
  intro s whole
  obtain ⟨e, l, h, exprRendered, lowRendered, highRendered, rfl⟩ := between_eq_ok.mp whole
  have above : Phrase p quoteNames false (e ++ raw " BETWEEN " ++ l) :=
    ((he e exprRendered).const marks [] .apart (by decide)).part (hl l lowRendered) (by simp)
  exact (above.const marks [] .apart (by decide)).part (hh h highRendered) (by simp)

/-- Phrases with commas between them. -/
theorem list_phrase {ts : List Sql} (h : ∀ t ∈ ts, Phrase p quoteNames false t) :
    Phrase p quoteNames false (joinWith ", " ts) := Phrase.joinWith marks (by decide) h

theorem inList_phrase {expr : Result Sql} {values : List (Result Sql)}
    (he : Ensures (Phrase p quoteNames quiet) expr)
    (hv : ∀ r ∈ values, Ensures (Phrase p quoteNames false) r) :
    Ensures (Phrase p quoteNames quiet) (inList expr values) := by
  intro s whole
  obtain ⟨e, vs, exprRendered, valuesRendered, rfl⟩ := inList_eq_ok.mp whole
  have list := list_phrase marks (Ensures.parts hv valuesRendered)
  have opened : Draft p quoteNames quiet [] [.paren] .within
      (e ++ raw " IN (" ++ joinWith ", " vs) :=
    ((he e exprRendered).const marks [.paren] .apart (by cases quiet <;> decide)).part list
      (by simp)
  exact opened.const marks [] .within (by cases quiet <;> decide)

theorem inSubquery_phrase {expr statement : Result Sql}
    (he : Ensures (Phrase p quoteNames quiet) expr)
    (hs : Ensures (Phrase p quoteNames false) statement) :
    Ensures (Phrase p quoteNames quiet) (inSubquery d expr statement) := by
  intro s whole
  obtain ⟨-, e, t, exprRendered, statementRendered, rfl⟩ := inSubquery_eq_ok.mp whole
  have opened : Draft p quoteNames quiet [] [.paren] .within (e ++ raw " IN (" ++ t) :=
    ((he e exprRendered).const marks [.paren] .apart (by cases quiet <;> decide)).part
      (hs t statementRendered) (by simp)
  exact opened.const marks [] .within (by cases quiet <;> decide)

theorem isNull_phrase {expr : Result Sql} (he : Ensures (Phrase p quoteNames quiet) expr) :
    Ensures (Phrase p quoteNames quiet) (isNull expr) := by
  intro s whole
  obtain ⟨e, rendered, rfl⟩ := isNull_eq_ok.mp whole
  exact (he e rendered).const marks [] .within (by cases quiet <;> decide)

theorem isNotNull_phrase {expr : Result Sql} (he : Ensures (Phrase p quoteNames false) expr) :
    Ensures (Phrase p quoteNames false) (isNotNull expr) := by
  intro s whole
  obtain ⟨e, rendered, rfl⟩ := isNotNull_eq_ok.mp whole
  exact (he e rendered).const marks [] .within (by decide)

/-! ## Calls -/

omit marks in
/-- A call from the spelling of the function to the end of its arguments. -/
theorem call_draft {spelling : String} (opens : OpensCall p spelling) {s : Sql}
    (h : Phrase p quoteNames false s) :
    Draft p quoteNames true [] [.paren] .within (raw (spelling ++ "(") ++ s) :=
  (Draft.ofText opens.leads.plain opens.leads.nested (.inr ⟨rfl, opens.leads.idle⟩)).part h
    (by simp)

omit marks in
theorem call_term {spelling : String} (opens : OpensCall p spelling) {s : Sql}
    (phrase : Phrase p quoteNames true (.raw (spelling ++ "(") :: s)) :
    IsTerm p quoteNames (.raw (spelling ++ "(") :: s) :=
  .ofRaw phrase opens.named

/-- Phrases with an operator between them. -/
theorem operator_phrase {operator : String} (readable : Leads p [] (" " ++ operator ++ " ") [])
    {parts : List Sql} (h : ∀ t ∈ parts, Phrase p quoteNames quiet t) :
    Phrase p quoteNames quiet (joinWith (" " ++ operator ++ " ") parts) := by
  have separates : Draft.Separates p quiet [] (" " ++ operator ++ " ") := by
    refine ⟨readable.toIsPart.frame [] (by simp), by simp, ?_, readable.idle⟩
    rw [String.append_assoc]
    exact Lexer.startsApart_append (by decide)
  exact Draft.nil.joinWith marks separates h fun _ same => same

theorem apply_value {kind : Kind} {spec : FunctionSpec} (readable : spec.IsReadable p)
    {args : List (Result Sql)} (h : ∀ r ∈ args, Ensures (Phrase p quoteNames false) r) :
    Ensures (IsValue p quoteNames) (apply d kind spec args) := by
  intro s whole
  rcases apply_eq_ok whole with ⟨style, rfl⟩ | ⟨arg, rest, style, rendered, rfl⟩ |
    ⟨parts, style, rendered, rfl⟩ | ⟨parts, style, rendered, rfl⟩
  · simp only [FunctionSpec.IsReadable, style] at readable
    exact (IsTerm.ofRaw (.ofIsText readable.1) readable.2).toIsValue
  · simp only [FunctionSpec.IsReadable, style] at readable
    have phrase : Phrase p quoteNames false arg := h (.ok arg) (by simp [rendered]) arg rfl
    have opened : Draft p quoteNames true [] [.paren] .within
        (raw ("(" ++ spec.name ++ " ") ++ arg) := by
      have opening : IsPart p true [] ("(" ++ (spec.name ++ " ")) [.paren] :=
        .lead marks [.paren] (by decide) (readable.1.toIsPart.frame [.paren] (by simp))
      have idle : Lexer.endsIdle ("(" ++ (spec.name ++ " ")).toList := by
        rw [← String.append_assoc, String.toList_append]
        exact Lexer.endsIdle_append (by decide) (by decide) (by decide)
      rw [String.append_assoc]
      exact (Draft.ofText opening.plain opening.nested (.inr ⟨rfl, idle⟩)).part phrase (by simp)
    have closing : Lexer.plainTokens ")".toList ≠ [] := by decide
    refine ⟨opened.const marks [] .within (by decide), ?_⟩
    rw [Sql.tokens_append, Sql.tokens_raw]
    exact List.append_ne_nil_of_right_ne_nil _ closing
  · simp only [FunctionSpec.IsReadable, style] at readable
    exact parens_value marks (operator_phrase marks readable (Ensures.parts h rendered))
  · have opens : OpensCall p spec.name := by
      rcases style with style | ⟨code, style⟩ <;>
        simpa only [FunctionSpec.IsReadable, style] using readable
    have list := list_phrase marks (Ensures.parts h rendered)
    exact (call_term opens ((call_draft opens list).const marks [] .within (by decide))).toIsValue

theorem regexpLike_value (readable : d.profile.regexp.IsReadable p) {expr pattern : Result Sql}
    (he : Ensures (Phrase p quoteNames false) expr)
    (hp : Ensures (Phrase p quoteNames false) pattern) :
    Ensures (IsValue p quoteNames) (regexpLike d expr pattern) := by
  intro s whole
  refine apply_value marks readable ?_ s (regexpLike_eq_ok.mp whole).2
  simp only [List.mem_cons, List.not_mem_nil, or_false, forall_eq_or_imp, forall_eq]
  exact ⟨he, hp⟩

/-- The branches of a CASE, one behind the other. -/
theorem branches_draft {parts : List Sql}
    (each : ∀ part ∈ parts, ∃ c r, Phrase p quoteNames false c ∧ Phrase p quoteNames false r ∧
      raw " WHEN " ++ c ++ raw " THEN " ++ r = part) {s : Sql}
    (h : Draft p quoteNames true [] [.case] .within s) :
    Draft p quoteNames true [] [.case] .within (s ++ parts.flatten) := by
  induction parts generalizing s with
  | nil => simpa using h
  | cons part parts ih =>
    obtain ⟨c, r, condition, result, rfl⟩ := each part (by simp)
    have asked : Draft p quoteNames true [] [.case] .within (s ++ raw " WHEN " ++ c) :=
      (h.const marks [.case] .apart (by decide)).part condition (by simp)
    have answered : Draft p quoteNames true [] [.case] .within
        (s ++ raw " WHEN " ++ c ++ raw " THEN " ++ r) :=
      (asked.const marks [.case] .apart (by decide)).part result (by simp)
    have rest := ih (fun part member => each part (List.mem_cons_of_mem _ member)) answered
    simpa [List.append_assoc] using rest

theorem branchCondition_phrase {basis : Option Sql} {c : Sql}
    (hb : ∀ b ∈ basis, Phrase p quoteNames false b) (hc : Phrase p quoteNames false c) :
    Phrase p quoteNames false (branchCondition d basis c) := by
  unfold branchCondition
  split
  · rename_i b
    split
    · exact hc
    · exact ((hb b rfl).const marks [] .apart (by decide)).part hc (by simp)
  · exact hc

theorem case_term {basis : Option (Result Sql)} {branches : List (Result Sql × Result Sql)}
    {otherwise : Option (Result Sql)} (hb : ∀ r ∈ basis, Ensures (Phrase p quoteNames false) r)
    (hc : ∀ b ∈ branches, Ensures (Phrase p quoteNames false) b.1 ∧
      Ensures (Phrase p quoteNames false) b.2)
    (he : ∀ r ∈ otherwise, Ensures (Phrase p quoteNames false) r) :
    Ensures (IsTerm p quoteNames) (case d basis branches otherwise) := by
  intro s whole
  obtain ⟨b, parts, e, basisRendered, rendered, otherwiseRendered, rfl⟩ := case_eq_ok.mp whole
  have basisPhrase := Ensures.part hb basisRendered
  have each : ∀ part ∈ parts, ∃ c r, Phrase p quoteNames false c ∧ Phrase p quoteNames false r ∧
      raw " WHEN " ++ c ++ raw " THEN " ++ r = part := by
    refine Ensures.parts (fun r member => ?_) rendered
    obtain ⟨⟨condition, result⟩, listed, rfl⟩ := List.mem_map.mp member
    intro part whole
    obtain ⟨c, r, conditionRendered, resultRendered, rfl⟩ := branch_eq_ok.mp whole
    obtain ⟨conditionPhrase, resultPhrase⟩ := hc _ listed
    exact ⟨_, r, branchCondition_phrase marks basisPhrase (conditionPhrase c conditionRendered),
      resultPhrase r resultRendered, rfl⟩
  have opened : Draft p quoteNames true [] [.case] .within (raw "CASE") :=
    Draft.ofConst marks [.case] .within (by decide)
  have based : Draft p quoteNames true [] [.case] .within
      (raw "CASE" ++ if d.has .simpleCase then clause " " b else []) := by
    split
    · exact Phrase.clause marks opened " " (by decide) basisPhrase (by simp)
    · simpa using opened
  have answered : Draft p quoteNames true [] [.case] .within
      (raw "CASE" ++ (if d.has .simpleCase then clause " " b else []) ++ parts.flatten ++
        clause " ELSE " e) :=
    Phrase.clause marks (branches_draft marks each based) " ELSE " (by decide)
      (Ensures.part he otherwiseRendered) (by simp)
  exact .ofRaw (answered.const marks [] .within (by decide)) (by decide)

/-- A call that begins with a constant text. -/
theorem wrapped_term {text : String} (step : isStep true [] .apart text [.paren] .apart &&
      isNamed text) {a : Sql} (h : Phrase p quoteNames false a) :
    IsTerm p quoteNames (raw text ++ a ++ raw ")") := by
  rw [Bool.and_eq_true] at step
  have opening : Draft p quoteNames true [] [.paren] .apart (raw text) :=
    .ofConst marks [.paren] .apart step.1
  exact .ofRaw ((opening.part h (by simp)).const marks [] .within (by decide)) step.2

theorem extract_term {part : DatePart} (known : ∀ name, part ≠ .other name) {arg : Result Sql}
    (h : Ensures (Phrase p quoteNames false) arg) :
    Ensures (IsTerm p quoteNames) (extract d part arg) := by
  intro s whole
  obtain ⟨a, rendered, forms⟩ := extract_eq_ok whole
  have phrase := h a rendered
  rcases forms with rfl | rfl | ⟨format, type, found, rfl⟩
  · refine wrapped_term marks ?_ phrase
    cases part with
    | other name => exact absurd rfl (known name)
    | _ => decide +kernel
  · refine wrapped_term marks ?_ phrase
    cases part with
    | other name => exact absurd rfl (known name)
    | _ => decide +kernel
  · have types : type = "INTEGER" ∨ type = "REAL" := by
      cases part <;> simp [strftimeFormat?] at found <;> simp [← found.2]
    have opened : Draft p quoteNames true [] [.paren, .paren] .within
        (raw "CAST(STRFTIME(" ++ [.text format] ++ raw ", " ++ a) :=
      (((Draft.ofConst marks [.paren, .paren] .apart (by decide)).text marks format).const marks
        [.paren, .paren] .apart (by decide)).part phrase (by simp)
    refine .ofRaw ?_ (by decide)
    rcases types with rfl | rfl
    · exact opened.const marks [] .within (by decide)
    · exact opened.const marks [] .within (by decide)

omit marks in
theorem cast_value (readable : d.Readable) {type : DataType} {arg : Result Sql}
    (h : Ensures (Phrase d.profile quoteNames false) arg) :
    Ensures (IsValue d.profile quoteNames) (cast d type arg) := by
  intro s whole
  have marks := readable.legible.marks
  obtain ⟨name, a, found, rendered, rfl⟩ := cast_eq_ok.mp whole
  have text := typeName_isText readable found
  have phrase := h a rendered
  split
  · rename_i style
    have ordinary : ∀ c ∈ [':'], Lexer.isOrdinary d.profile c := by simp [readable.colons style]
    have colons : IsText d.profile true "::" := ⟨.of marks ordinary (by decide), by decide⟩
    have spelled : IsText d.profile true ("::" ++ name) := colons.append text (.inl (by decide))
    have closed := phrase.parens marks
    refine ⟨closed.raw marks spelled.plain (.inl rfl) spelled.nested (.inl rfl), ?_⟩
    simp [(parens_value marks phrase).nonempty]
  · have ending : IsPart d.profile true [.paren] (" AS " ++ name ++ ")") [] := by
      rw [String.append_assoc]
      exact .lead marks [.paren] (by decide)
        (.append (text.frame [.paren] (by simp)) (.const marks (by decide)) (.inr (by decide)))
    have opened : Draft d.profile quoteNames true [] [.paren] .within (raw "CAST(" ++ a) :=
      (Draft.ofConst marks [.paren] .apart (by decide)).part phrase (by simp)
    have apart : " AS " ++ name ++ ")" ≠ "" ∧
        Lexer.startsApart (" AS " ++ name ++ ")").toList := by
      rw [String.append_assoc]
      exact ⟨by simp, Lexer.startsApart_append (by decide)⟩
    exact (IsTerm.ofRaw (opened.raw marks ending.plain (.inr apart) ending.nested (.inl rfl))
      (by decide)).toIsValue

theorem aggregateArguments_phrase {distinct : Bool} {args : List (Result Sql)}
    (h : ∀ r ∈ args, Ensures (Phrase p quoteNames false) r) :
    Ensures (Phrase p quoteNames false) (aggregateArguments distinct args) := by
  intro s whole
  obtain ⟨parts, rendered, rfl⟩ := aggregateArguments_eq_ok.mp whole
  have list := list_phrase marks (Ensures.parts h rendered)
  split
  · exact Draft.ofConst marks [] .within (by decide)
  · split
    · exact (Draft.ofConst marks [] .apart (by decide)).part list (by simp)
    · exact list

theorem filterClause_draft {filter : Option (Result Sql)}
    (h : ∀ r ∈ filter, Ensures (Phrase p quoteNames false) r) {f : Sql}
    (whole : filterClause d filter = .ok f) {s : Sql} (hs : Phrase p quoteNames true s) :
    Phrase p quoteNames true (s ++ f) := by
  obtain ⟨-, c, rendered, rfl⟩ := filterClause_eq_ok.mp whole
  have condition := Ensures.part h rendered
  cases c with
  | none => simpa [filterText] using hs
  | some c =>
    have filtered : Phrase p quoteNames true (s ++ raw " FILTER (WHERE " ++ c ++ raw ")") :=
      ((hs.const marks [.paren] .apart (by decide)).part (condition c rfl) (by simp)).const marks []
        .within (by decide)
    simpa [filterText, List.append_assoc] using filtered

theorem aggregate_term (spellings : d.profile.aggregates.Forall (OpensCall p)) {name : String}
    {distinct : Bool} {args : List (Result Sql)} {filter : Option (Result Sql)}
    (ha : ∀ r ∈ args, Ensures (Phrase p quoteNames false) r)
    (hf : ∀ r ∈ filter, Ensures (Phrase p quoteNames false) r) :
    Ensures (IsTerm p quoteNames) (aggregate d name distinct args filter) := by
  intro s whole
  obtain ⟨spelling, a, f, found, argsRendered, filterRendered, rfl⟩ := aggregate_eq_ok.mp whole
  have opens := spellings.get? found
  have called : Phrase p quoteNames true (raw (spelling ++ "(") ++ a ++ raw ")") :=
    (call_draft opens (aggregateArguments_phrase marks ha a argsRendered)).const marks [] .within
      (by decide)
  exact call_term opens (filterClause_draft marks hf filterRendered called)

/-- The argument of a call that joins texts, behind its spelling. -/
theorem concatValue_draft (opening : String) (step : isStep true [] .apart opening [.paren] .apart)
    (distinct : Bool) {a : Sql} (h : Phrase p quoteNames false a) :
    Draft p quoteNames true [] [.paren] .within
      (raw opening ++ ((if distinct then raw "DISTINCT " else []) ++ a)) := by
  have opened : Draft p quoteNames true [] [.paren] .apart (raw opening) :=
    .ofConst marks [.paren] .apart step
  cases distinct with
  | true =>
    have kept : Draft p quoteNames true [] [.paren] .within (raw opening ++ raw "DISTINCT " ++ a) :=
      (opened.const marks [.paren] .apart (by decide)).part h (by simp)
    simpa [List.append_assoc] using kept
  | false => simpa using opened.part h (by simp)

theorem text_phrase (text : String) (quiet : Bool) : Phrase p quoteNames quiet [.text text] :=
  Draft.nil.text marks text

theorem concatCall_term (style : ConcatStyle) (distinct : Bool) {a : Sql}
    (ha : Phrase p quoteNames false a) {order : Option Sql}
    (ho : ∀ o ∈ order, Phrase p quoteNames false o) (separator : Option String) :
    IsTerm p quoteNames (concatCall style distinct a order separator) := by
  have given : ∀ t ∈ (separator.map fun s => ([.text s] : Sql)), Phrase p quoteNames true t := by
    intro t member
    obtain ⟨text, -, rfl⟩ := Option.map_eq_some_iff.mp member
    exact text_phrase marks text true
  have needed : Phrase p quoteNames true
      ((separator.map fun s => ([.text s] : Sql)).getD [.text ","]) := by
    cases separator with
    | none => exact text_phrase marks "," true
    | some text => exact text_phrase marks text true
  unfold concatCall
  cases style with
  | groupConcat =>
    have value := concatValue_draft marks "GROUP_CONCAT(" (by decide) distinct ha
    have ordered := Phrase.clause marks value " " (by decide) ho (by simp)
    have separated := Phrase.clause marks ordered " SEPARATOR " (by decide) given (by simp)
    exact .ofRaw (separated.const marks [] .within (by decide)) (by decide)
  | groupConcatArgument =>
    have allowed : ∀ t ∈ (if distinct then none else separator.map fun s => ([.text s] : Sql)),
        Phrase p quoteNames true t := by
      cases distinct with
      | true => simp
      | false => exact given
    have value := concatValue_draft marks "GROUP_CONCAT(" (by decide) distinct ha
    have separated := Phrase.clause marks value ", " (by decide) allowed (by simp)
    have ordered := Phrase.clause marks separated " " (by decide) ho (by simp)
    exact .ofRaw (ordered.const marks [] .within (by decide)) (by decide)
  | stringAgg =>
    have value := concatValue_draft marks "STRING_AGG(" (by decide) distinct ha
    have separated := Phrase.clause marks value ", " (by decide) given (by simp)
    have ordered := Phrase.clause marks separated " " (by decide) ho (by simp)
    exact .ofRaw (ordered.const marks [] .within (by decide)) (by decide)
  | stringAggSeparator =>
    have value := concatValue_draft marks "STRING_AGG(" (by decide) distinct ha
    have separated := value.also marks ", " [.paren] (by decide) needed (by simp)
    have ordered := Phrase.clause marks separated " " (by decide) ho (by simp)
    exact .ofRaw (ordered.const marks [] .within (by decide)) (by decide)
  | stringAggWithin =>
    have value := concatValue_draft marks "STRING_AGG(" (by decide) distinct ha
    have separated := value.also marks ", " [.paren] (by decide) needed (by simp)
    cases order with
    | none =>
      refine .ofRaw ?_ (by decide)
      simpa [raw] using (separated.close marks).weaken
    | some o =>
      have within := (separated.close marks).also marks " WITHIN GROUP (" [.paren] (by decide)
        (ho o rfl) (by simp)
      refine .ofRaw ?_ (by decide)
      simpa [raw] using (within.close marks).weaken
  | listagg since =>
    have value := concatValue_draft marks "LISTAGG(" (by decide) distinct ha
    have separated := value.also marks ", " [.paren] (by decide) needed (by simp)
    have sorted : Phrase p quoteNames false (order.getD (raw "ORDER BY NULL")) := by
      cases order with
      | none => exact Draft.ofConst marks [] .within (by decide)
      | some o => exact ho o rfl
    have within := separated.also marks ") WITHIN GROUP (" [.paren] (by decide) sorted (by simp)
    exact .ofRaw (within.const marks [] .within (by decide)) (by decide)

theorem groupConcat_term {arg : Result Sql} {distinct : Bool} {order : Option (Result Sql)}
    {separator : Option String} (ha : Ensures (Phrase p quoteNames false) arg)
    (ho : ∀ r ∈ order, Ensures (Phrase p quoteNames false) r) :
    Ensures (IsTerm p quoteNames) (groupConcat d arg distinct order separator) := by
  intro s whole
  obtain ⟨-, a, o, rendered, orderRendered, rfl⟩ := groupConcat_eq_ok.mp whole
  exact concatCall_term marks d.concatStyle distinct (ha a rendered)
    (Ensures.part ho orderRendered) separator

theorem windowParts_phrase {partition : List Sql} {order : Option Sql} {bounds : Option Frame}
    (hp : ∀ t ∈ partition, Phrase p quoteNames false t)
    (ho : ∀ o ∈ order, Phrase p quoteNames false o)
    (checked : ∀ f ∈ bounds, Build.checkFrame f = .ok ()) :
    Phrase p quoteNames false (joinWith " " (windowParts partition order bounds)) := by
  refine Phrase.joinWith marks (by decide) fun t member => ?_
  simp only [windowParts, List.mem_append, Option.mem_toList] at member
  rcases member with (member | given) | given
  · split at member
    · contradiction
    · rw [List.mem_singleton] at member
      subst member
      exact (Draft.ofConst marks [] .apart (by decide)).part (list_phrase marks hp) (by simp)
  · exact ho t given
  · obtain ⟨f, bounded, rfl⟩ := Option.map_eq_some_iff.mp given
    exact .ofIsText (frame_isText marks (checked f bounded))

theorem windowList_phrase (name : String) {list : List Sql}
    (h : ∀ t ∈ list, Phrase p quoteNames false t) :
    Phrase p quoteNames false (windowList name list) := by
  unfold windowList
  split
  · exact Draft.ofConst marks [] .within (by decide)
  · exact list_phrase marks h

theorem window_term (spellings : d.profile.windowFunctions.Forall (OpensCall p)) {name : String}
    {args partition : List (Result Sql)} {order : Option (Result Sql)} {bounds : Option Frame}
    (ha : ∀ r ∈ args, Ensures (Phrase p quoteNames false) r)
    (hp : ∀ r ∈ partition, Ensures (Phrase p quoteNames false) r)
    (ho : ∀ r ∈ order, Ensures (Phrase p quoteNames false) r)
    (checked : ∀ f ∈ bounds, Build.checkFrame f = .ok ()) :
    Ensures (IsTerm p quoteNames) (window d name args partition order bounds) := by
  intro s whole
  obtain ⟨-, spelling, l, t, o, found, argsRendered, partitionRendered, orderRendered, rfl⟩ :=
    window_eq_ok.mp whole
  have opens := spellings.get? found
  have list := windowList_phrase marks name (Ensures.parts ha argsRendered)
  have parts := windowParts_phrase marks (Ensures.parts hp partitionRendered)
    (Ensures.part ho orderRendered) checked
  have framed := (call_draft opens list).also marks ") OVER (" [.paren] (by decide) parts (by simp)
  exact call_term opens (framed.close marks).weaken

end

end

end Pushdown.Render

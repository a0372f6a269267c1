import Mathlib.Data.Option.Basic
import Pushdown.Proofs.Dialect.Vocabulary
import Pushdown.Proofs.Sql.Injection
import Pushdown.Proofs.Sql.Names

/-!
# Operands

Whatever is rendered for a value or a condition is an operand: it begins where an operand may begin,
and at its end none is missing. Each construct has a lemma that goes through its text in the order
in which the renderer puts it together. The lemmas also say when no parentheses are left empty,
which depends on the parts alone but for one construct: an operator that takes any number of
operands and is given none.
-/

namespace Pushdown

/-- An operator that takes any number of operands has none. -/
def Node.LacksOperands (d : Dialect) : Node → Prop
  | .function name args => args = [] ∧ ∃ spec, d.profile.functions.get? name = some spec ∧
      spec.style = .operator ∧ spec.arity < 0
  | _ => False

/-- No operator in the tree lacks its operands. -/
abbrev Node.HasOperands (d : Dialect) (n : Node) : Prop := n.Everywhere fun m => ¬ m.LacksOperands d

/-! ## Texts with numbers -/

namespace Vocabulary

variable {v : Vocabulary} {starts middle middle' stops : List Gap} {a b : String}

theorem leads_numeral (h : IsNumeral a) : v.leads (.ended :: Gap.beginnings) a [.ended] := by
  obtain ⟨signs, body, tokens, sign⟩ := h.tokens
  have signed : ∀ roles ∈ [[Token.Role.number], [.sign, .number]],
      ∀ g ∈ .ended :: Gap.beginnings,
        g.admitsAll roles ∧ g.after roles ∈ [.ended] ∧ g.fills roles := by decide
  have number : v.role (.number body) = .number := rfl
  have plus : v.role (.symbol '+') = .sign := rfl
  have minus : v.role (.symbol '-') = .sign := rfl
  rw [leads_iff]
  refine signed _ ?_
  rw [tokens]
  rcases sign with rfl | rfl | rfl <;> simp [number, plus, minus]

theorem leads_int (n : Int) : v.leads (.ended :: Gap.beginnings) (toString n) [.ended] :=
  leads_numeral (.toString_int n)

/-- Only a number without a sign can be the number of rows in front of a projection. -/
theorem leads_count {n : Int} (nonneg : 0 ≤ n) : v.leads [.top] (toString n) [.projection] := by
  obtain ⟨body, tokens⟩ := Lexer.plainTokens_toString nonneg
  have number : v.role (.number body) = .number := rfl
  rw [leads_iff, tokens]
  simp [number, Gap.admitsAll, Gap.admits, Gap.after, Gap.next, Gap.fills]

/-- A constant text that stands apart at its end, with another text behind it. -/
theorem leads_const_append (middle : List Gap) (first : leadsAlways starts a middle)
    (next : v.leads middle' b stops) (meets : middle ⊆ middle')
    (idle : Lexer.endsIdle a.toList) : v.leads starts (a ++ b) stops :=
  leads_append (leads_of_always first) (leads_weaken next meets (List.Subset.refl _)) (.inl idle)

/-- A number with a text behind it that starts apart. -/
theorem leads_int_append (n : Int) (next : v.leads [.ended] a stops)
    (apart : Lexer.startsApart a.toList) :
    v.leads (.ended :: Gap.beginnings) (toString n ++ a) stops :=
  leads_append (leads_int n) next (.inr apart)

end Vocabulary

namespace Render

open Sql (raw joinWith parens)

/-! ## Rendered parts -/

namespace Ensures

variable {α : Type} {R : α → Sql → Prop} {f : α → Result Sql}

/-- Every rendered part is related to what it was rendered from. -/
theorem each {xs : List α} {ts : List Sql} (h : ∀ x ∈ xs, Ensures (R x) (f x))
    (rendered : xs.map f = ts.map .ok) : List.Forall₂ R xs ts := by
  induction xs generalizing ts with
  | nil =>
    obtain rfl : ts = [] := by simpa [eq_comm] using rendered
    exact .nil
  | cons x xs ih =>
    cases ts with
    | nil => simp at rendered
    | cons t ts =>
      obtain ⟨first, rest⟩ := List.cons.inj rendered
      exact .cons (h x (by simp) t first) (ih (fun y member => h y (by simp [member])) rest)

theorem given {o : Option α} {t : Option Sql} (h : ∀ x ∈ o, Ensures (R x) (f x))
    (rendered : o.map f = t.map .ok) : Option.Rel R o t := by
  cases o with
  | none =>
    obtain rfl : t = none := by simpa [eq_comm] using rendered
    exact .none
  | some x =>
    cases t with
    | none => simp at rendered
    | some t => exact .some (h x rfl t (Option.some.inj rendered))

end Ensures

section

variable {d : Dialect} {ctx : Context} {v : Vocabulary}

/-- Whatever is rendered is an operand. -/
abbrev Operand (v : Vocabulary) (filled : Prop) (r : Result Sql) : Prop :=
  Ensures (Sql.IsOperand v filled) r

/-! ## Names and constants -/

theorem tableName_operand (d : Dialect) (ctx : Context) (name : String) :
    (tableName d ctx name).IsOperand v True := by
  have part (wanted : Bool) (name : String) : ∀ t ∈ if wanted && name != "" then
      ([[.name name]] : List Sql) else [], t.IsOperand v True := by
    intro t member
    split at member
    · rw [List.mem_singleton] at member
      rw [member]
      exact .ofName name (by decide)
    · contradiction
  have named : ∀ t ∈ (if d.profile.qualifyCatalog && ctx.catalog != "" then
        ([[.name ctx.catalog]] : List Sql) else []) ++
      (if d.profile.qualifySchema && ctx.schema != "" then [[Fragment.name ctx.schema]] else []) ++
      [[Fragment.name name]], t.IsOperand v True := by
    intro t member
    rcases List.mem_append.mp member with member | member
    · rcases List.mem_append.mp member with member | member
      · exact part _ _ t member
      · exact part _ _ t member
    · rw [List.mem_singleton] at member
      rw [member]
      exact .ofName name (by decide)
  exact (Sql.Reaches.joinWith "." (Vocabulary.leads_of_always (by decide)) (by simp)
    (List.forall₂_same.mpr named)).congr (by simp)

theorem tableAlias_reaches (d : Dialect) (aliasName : String) :
    (tableAlias d aliasName).Reaches v [.ended] [.ended] True := by
  unfold tableAlias
  split
  · exact (Sql.Reaches.ofConst [.needed] (by decide)).name aliasName (by decide)
  · exact (Sql.Reaches.ofConst [.ended] (by decide)).name aliasName (by decide)

theorem table_operand (d : Dialect) (ctx : Context) (t : Table) :
    (table d ctx t).IsOperand v True := by
  unfold table
  split
  · simpa using tableName_operand d ctx t.name
  · exact ((tableName_operand d ctx t.name).append (tableAlias_reaches d t.aliasName)
      (by decide)).congr
      (by simp)

theorem column_operand (d : Dialect) (ctx : Context) (c : Column) :
    (column d ctx c).IsOperand v True := by
  have field {s : Sql} (h : s.IsOperand v True) :
      Sql.IsOperand v True (s ++ raw "." ++ [Fragment.name c.name]) :=
    (h.const _ [.needed] (by decide)).name c.name (by decide)
  unfold column
  split
  · exact field (.ofName c.aliasName (by decide))
  · split
    · exact field (tableName_operand d ctx c.table)
    · exact .ofName c.name (by decide)

/-- An empty text is left out, but it has no tokens anyway. -/
theorem rawUnlessEmpty_reaches {text : String} {starts stops : List Gap}
    (step : leadsAlways starts text stops) :
    (Sql.rawUnlessEmpty text).Reaches v starts stops True := by
  have whole : (raw text).Reaches v starts stops True := .ofConst stops step
  have same : (Sql.rawUnlessEmpty text).roles v = (raw text).roles v := by
    unfold Sql.rawUnlessEmpty
    split
    · rename_i empty
      rw [empty]
      rfl
    · rfl
  constructor
  · rw [same]
    exact whole.admitted
  · rw [same]
    exact whole.arrives
  · rw [same]
    exact whole.fills

/-- A text in its template. -/
theorem fill_operand {template : String} (h : FitsTemplate template) (p : Profile)
    (value : String) : (Sql.fill p template value).IsOperand v True := by
  obtain ⟨front, back, ⟨parts, once⟩, before, behind⟩ := h
  rw [Sql.fill_once p parts once]
  exact (((rawUnlessEmpty_reaches before).string value (by decide)).append
    (rawUnlessEmpty_reaches behind) (by decide)).congr (by simp)

theorem literal_operand (dates : FitsTemplate d.profile.dateLiteral)
    (timestamps : FitsTemplate d.profile.timestampLiteral) {l : Literal} (format : l.KeepsFormat) :
    Operand v True (literal d l) := by
  have numeral {text : String} (h : IsNumeral text) : (raw text).IsOperand v True :=
    (Sql.Reaches.ofText (Vocabulary.leads_numeral h)).weaken (by decide) (List.Subset.refl _)
  intro s h
  unfold literal at h
  unfold Literal.KeepsFormat at format
  cases type : l.type <;> simp only [type] at h format
  case null =>
    cases h
    exact .ofConst [.ended] (by decide)
  case bool =>
    split at h
    · cases h
      rcases format with value | value <;> rw [value] <;> exact .ofConst _ (by decide)
    · cases h
      split <;> exact .ofConst _ (by decide)
  case exactNumeric =>
    cases h
    exact numeral (.of_isExactNumeric format)
  case double =>
    cases h
    exact numeral (.of_isFiniteDouble format)
  case string =>
    cases h
    exact .ofString l.value (by decide)
  case date =>
    cases h
    exact fill_operand dates d.profile l.value
  case timestamp | timestampUtc =>
    cases h
    exact fill_operand timestamps d.profile l.value
  case interval =>
    simp only [bind_eq_ok, require_eq_ok, pure_eq_ok] at h
    obtain ⟨-, -, rfl⟩ := h
    have value : Sql.IsOperand v True (raw "INTERVAL " ++ [Fragment.text l.value]) :=
      (Sql.Reaches.ofConst [.ended] (by decide)).string l.value (by decide)
    cases range : l.interval.range
    · exact value.const _ [.ended] (by decide)
    · exact value.const _ [.ended] (by decide)
    · simp [range, IntervalRange.isKnown] at format

/-! ## Texts from numbers and tables -/

/-- Where a row limit stands, and what comes behind it. -/
def limitGap (style : LimitStyle) : Gap := if style = .top then .projection else .ended

theorem limitText_leads {l : Limit} (count : 0 ≤ l.count) (style : LimitStyle) :
    v.leads [limitGap style] (limitText style l) [limitGap style] := by
  have rows : v.leads (.ended :: Gap.beginnings) (toString l.count ++ " ROWS ONLY") [.ended] :=
    Vocabulary.leads_int_append _ (Vocabulary.leads_of_always (by decide)) (by decide)
  have skip : v.leads [.needed]
      (toString l.offset ++ (" ROWS FETCH FIRST " ++ (toString l.count ++ " ROWS ONLY")))
      [.ended] :=
    Vocabulary.leads_weaken (Vocabulary.leads_int_append _
      (Vocabulary.leads_const_append [.ended] (by decide) rows (by decide) (by decide))
      (Lexer.startsApart_append (by decide))) (by decide) (List.Subset.refl _)
  have both : v.leads [.needed] (toString l.count ++ (" OFFSET " ++ toString l.offset)) [.ended] :=
    Vocabulary.leads_weaken (Vocabulary.leads_int_append _
      (Vocabulary.leads_const_append [.needed] (by decide) (Vocabulary.leads_int _) (by decide)
        (by decide))
      (Lexer.startsApart_append (by decide))) (by decide) (List.Subset.refl _)
  unfold limitText
  split
  · exact Vocabulary.leads_const_append [.top] (by decide) (Vocabulary.leads_count count)
      (by decide) (by decide)
  · split
    · simp only [String.append_assoc]
      exact Vocabulary.leads_const_append [.needed] (by decide) skip (by decide) (by decide)
    · simp only [String.append_assoc]
      exact Vocabulary.leads_const_append [.ended] (by decide) rows (by decide) (by decide)
  all_goals
    change v.leads [.ended] _ [.ended]
    split
    · simp only [String.append_assoc]
      exact Vocabulary.leads_const_append [.needed] (by decide) both (by decide) (by decide)
    · exact Vocabulary.leads_const_append [.needed] (by decide) (Vocabulary.leads_int _)
        (by decide) (by decide)

theorem typeName_leads (types : d.profile.types.Forall (·.fits)) {type : DataType} {name : String}
    (h : d.profile.typeName? type = some name) : v.leads [.needed] name [.ended] := by
  simp only [Profile.typeName?, Option.bind_eq_bind, Option.bind_eq_some_iff] at h
  obtain ⟨spec, found, h⟩ := h
  have fits := types.get? found
  simp only [TypeSpec.fits, Bool.and_eq_true, Bool.or_eq_true, decide_eq_true_eq] at fits
  obtain ⟨plain, zoned⟩ := fits
  have behind {text : String} (next : v.leads [.ended] text [.ended])
      (apart : Lexer.startsApart text.toList) : v.leads [.needed] (spec.name ++ text) [.ended] :=
    Vocabulary.leads_append (Vocabulary.leads_of_always plain) next (.inr apart)
  have last (n : Int) : v.leads (.ended :: Gap.beginnings) (toString n ++ ")") [.ended] :=
    Vocabulary.leads_int_append n (Vocabulary.leads_of_always (by decide)) (by decide)
  have one (n : Int) : v.leads [.needed] (spec.name ++ ("(" ++ (toString n ++ ")"))) [.ended] :=
    behind (Vocabulary.leads_const_append [.opened] (by decide) (last n) (by decide) (by decide))
      (Lexer.startsApart_append (by decide))
  have two (n m : Int) : v.leads [.needed]
      (spec.name ++ ("(" ++ (toString n ++ (", " ++ (toString m ++ ")"))))) [.ended] := by
    have first : v.leads (.ended :: Gap.beginnings)
        (toString n ++ (", " ++ (toString m ++ ")"))) [.ended] :=
      Vocabulary.leads_int_append n
        (Vocabulary.leads_const_append [.needed] (by decide) (last m) (by decide) (by decide))
        (Lexer.startsApart_append (by decide))
    exact behind (Vocabulary.leads_const_append [.opened] (by decide) first (by decide) (by decide))
      (Lexer.startsApart_append (by decide))
  have range (r : IntervalRange) :
      v.leads [.needed] (spec.name ++ (" " ++ r.qualifier)) [.ended] := by
    have qualifier : r.qualifier = "DAY TO SECOND" ∨ r.qualifier = "YEAR TO MONTH" := by
      cases r <;> simp [IntervalRange.qualifier]
    refine behind ?_ (Lexer.startsApart_append (by decide))
    rcases qualifier with same | same <;> rw [same] <;>
      exact Vocabulary.leads_of_always (by decide)
  split at h
  · split at h
    · contradiction
    · rename_i nonempty
      exact Option.some.inj h ▸ Vocabulary.leads_of_always (zoned.resolve_left nonempty)
  · split at h
    · exact Option.some.inj h ▸ Vocabulary.leads_of_always plain
    · split at h <;> cases h
      · simp only [String.append_assoc]
        exact two type.precision type.scale
      · simp only [String.append_assoc]
        exact one type.size
      · simp only [String.append_assoc]
        exact one type.size
      · simp only [String.append_assoc]
        exact range type.range
      · exact Vocabulary.leads_of_always plain

theorem frameBound_leads (b : FrameBound) :
    v.leads (.ended :: Gap.beginnings) (frameBound b) [.ended] := by
  unfold frameBound
  split
  · exact Vocabulary.leads_of_always (by decide)
  · exact Vocabulary.leads_int_append _ (Vocabulary.leads_of_always (by decide)) (by decide)
  · exact Vocabulary.leads_of_always (by decide)
  · exact Vocabulary.leads_int_append _ (Vocabulary.leads_of_always (by decide)) (by decide)
  all_goals exact Vocabulary.leads_of_always (by decide)

theorem frame_leads {f : Frame} (checked : Build.checkFrame f = .ok ()) :
    v.leads [.called, .ended] (frame f) [.ended] := by
  have units := units_of_checkFrame checked
  have lead {text : String} (h : v.leads [.ended] text [.ended]) :
      v.leads [.called, .ended] (f.units.name ++ " " ++ text) [.ended] := by
    rcases units with same | same <;> rw [same]
    · exact Vocabulary.leads_const_append [.ended] (by decide) h (by decide) (by decide)
    · exact Vocabulary.leads_const_append [.ended] (by decide) h (by decide) (by decide)
  have bound (b : FrameBound) : v.leads [.ended] (frameBound b) [.ended] :=
    Vocabulary.leads_weaken (frameBound_leads b) (by decide) (List.Subset.refl _)
  unfold frame
  split
  · exact lead (bound f.start)
  · rename_i stop _
    refine lead ?_
    simp only [String.append_assoc]
    refine Vocabulary.leads_const_append [.needed] (by decide) (Vocabulary.leads_append
      (frameBound_leads f.start) ?_ (.inr (Lexer.startsApart_append (by decide))))
      (by decide) (by decide)
    exact Vocabulary.leads_const_append [.needed] (by decide) (frameBound_leads stop)
      (by decide) (by decide)

/-! ## Positions -/

section

variable {P Q R : Prop} {n : Node}

/-- The condition stands twice in its CASE. -/
theorem truthCase_operand {t : Sql} (h : t.IsOperand v P) : (truthCase t).IsOperand v P := by
  have first : (raw "CASE WHEN " ++ t).Reaches v Gap.beginnings [.ended] P :=
    .lead [.needed] (by decide) h (by decide)
  have second := (first.const " THEN 1 WHEN NOT (" [.opened] (by decide)).append h (by decide)
  exact (second.const ") THEN 0 END" [.ended] (by decide)).congr and_self_iff

theorem asOperand_operand {r : Result Sql} (expression : n.isExpression) (h : Operand v P r) :
    Operand v P (asOperand d n r) := by
  intro s whole
  obtain ⟨t, rendered, rfl⟩ := asOperand_eq_ok.mp whole
  have operand := h t rendered
  unfold operandText
  split
  · split
    · exact operand.parens (by decide)
    · exact truthCase_operand operand
  · split
    · rename_i select
      rw [Node.isExpression, select] at expression
      contradiction
    · exact operand

theorem asPredicate_operand {r : Result Sql} (constant : n.kind = .literal → P)
    (h : Operand v P r) : Operand v P (asPredicate d n r) := by
  intro s whole
  rcases asPredicate_eq_ok whole with rendered |
    ⟨-, ⟨l, rfl, -, rfl⟩ | ⟨c, t, rfl, -, rendered, rfl⟩⟩
  · exact h s rendered
  · have filled : P ↔ True := iff_true_intro (constant rfl)
    unfold truthText
    split <;> exact (Sql.Reaches.ofConst _ (by decide)).congr filled.symm
  · exact (h t rendered).const _ [.ended] (by decide)

/-! ## Predicates -/

theorem connective_operand {word : String}
    (step : leadsAlways [.ended] (" " ++ word ++ " ") [.needed]) {ok : Node → Prop}
    {operands : List Node} (nonempty : operands ≠ []) {f : Node → Result Sql}
    (h : ∀ o ∈ operands, Operand v (ok o) (f o)) :
    Operand v (∀ o ∈ operands, ok o) (connective word operands (operands.map f)) := by
  intro s whole
  obtain ⟨parts, rendered, rfl⟩ := connective_eq_ok.mp whole
  have each := Ensures.each h rendered
  have zipped : List.Forall₂ (fun o (c : Node × Sql) => c.2.IsOperand v (ok o))
      operands (operands.zip parts) := by
    clear h rendered whole nonempty
    induction each with
    | nil => exact .nil
    | cons first _ ih => exact .cons first ih
  have between : v.leads [.ended] (" " ++ word ++ " ") Gap.beginnings :=
    Vocabulary.leads_weaken (Vocabulary.leads_of_always step) (List.Subset.refl _) (by decide)
  refine .joinWith _ between nonempty (List.forall₂_map_right_iff.mpr (zipped.imp ?_))
  rintro o ⟨c, t⟩ part
  dsimp only
  split
  · exact part.parens (by decide)
  · exact part

theorem not_operand {condition : Result Sql} (h : Operand v P condition) :
    Operand v P (not condition) := by
  intro s whole
  obtain ⟨c, rendered, rfl⟩ := not_eq_ok.mp whole
  exact (Sql.Reaches.lead [.opened] (by decide) (h c rendered) (by decide)).const _ [.ended]
    (by decide)

theorem comparison_operand {op : ComparisonOp} (known : ∀ symbol, op ≠ .other symbol)
    {left right : Result Sql} (hl : Operand v P left) (hr : Operand v Q right) :
    Operand v (P ∧ Q) (comparison op left right) := by
  intro s whole
  obtain ⟨l, r, leftRendered, rightRendered, rfl⟩ := comparison_eq_ok.mp whole
  have step : leadsAlways [.ended] (" " ++ op.symbol ++ " ") [.needed, .less, .greater] := by
    cases op with
    | other symbol => exact absurd rfl (known symbol)
    | _ => decide
  exact ((hl l leftRendered).const _ _ step).append (hr r rightRendered) (by decide)

theorem like_operand {expr pattern : Result Sql} {ok : Node → Prop} {escape : Option Node}
    {f : Node → Result Sql} (he : Operand v P expr) (hp : Operand v Q pattern)
    (hx : ∀ x ∈ escape, Operand v (ok x) (f x)) :
    Operand v ((P ∧ Q) ∧ ∀ x ∈ escape, ok x) (like expr pattern (escape.map f)) := by
  intro s whole
  obtain ⟨e, p, x, exprRendered, patternRendered, escapeRendered, rfl⟩ := like_eq_ok.mp whole
  have left := (he e exprRendered).const " LIKE " [.needed] (by decide)
  exact (left.append (hp p patternRendered) (by decide)).clause " ESCAPE " [.needed] (by decide)
    (Ensures.given hx escapeRendered) (by decide)

theorem between_operand {expr low high : Result Sql} (he : Operand v P expr)
    (hl : Operand v Q low) (hh : Operand v R high) :
    Operand v ((P ∧ Q) ∧ R) (between expr low high) := by
  intro s whole
  obtain ⟨e, l, h, exprRendered, lowRendered, highRendered, rfl⟩ := between_eq_ok.mp whole
  have left := (he e exprRendered).const " BETWEEN " [.needed] (by decide)
  have above := (left.append (hl l lowRendered) (by decide)).const " AND " [.needed] (by decide)
  exact above.append (hh h highRendered) (by decide)

theorem inList_operand {expr : Result Sql} {ok : Node → Prop} {values : List Node}
    (nonempty : values ≠ []) {f : Node → Result Sql} (he : Operand v P expr)
    (hv : ∀ x ∈ values, Operand v (ok x) (f x)) :
    Operand v (P ∧ ∀ x ∈ values, ok x) (inList expr (values.map f)) := by
  intro s whole
  obtain ⟨e, vs, exprRendered, valuesRendered, rfl⟩ := inList_eq_ok.mp whole
  have opened := (he e exprRendered).const " IN (" [.opened] (by decide)
  have list := opened.append (.commas nonempty (Ensures.each hv valuesRendered)) (by decide)
  exact list.const ")" [.ended] (by decide)

theorem inSubquery_operand {expr statement : Result Sql} (he : Operand v P expr)
    (hs : Ensures (Sql.Reaches v [.free, .opened] [.ended] Q) statement) :
    Operand v (P ∧ Q) (inSubquery d expr statement) := by
  intro s whole
  obtain ⟨-, e, t, exprRendered, statementRendered, rfl⟩ := inSubquery_eq_ok.mp whole
  have opened := (he e exprRendered).const " IN (" [.opened] (by decide)
  exact (opened.append (hs t statementRendered) (by decide)).const _ [.ended] (by decide)

theorem isNull_operand {expr : Result Sql} (h : Operand v P expr) : Operand v P (isNull expr) := by
  intro s whole
  obtain ⟨e, rendered, rfl⟩ := isNull_eq_ok.mp whole
  exact (h e rendered).const _ [.ended] (by decide)

theorem isNotNull_operand {expr : Result Sql} (h : Operand v P expr) :
    Operand v P (isNotNull expr) := by
  intro s whole
  obtain ⟨e, rendered, rfl⟩ := isNotNull_eq_ok.mp whole
  exact (h e rendered).const _ [.ended] (by decide)

end

/-! ## Calls -/

/-- Parentheses that no operand was put into. -/
theorem parens_nil : (parens []).IsOperand v False := by
  have roles : (parens []).roles v = [.opens, .closes] := rfl
  have steps : ∀ g ∈ Gap.beginnings, g.admitsAll [.opens, .closes] ∧
      g.after [.opens, .closes] ∈ [.ended] ∧ g.fills [.opens, .closes] = false := by decide
  refine ⟨fun g member => ?_, fun g member => ?_, fun g member => ?_⟩
  · exact roles ▸ (steps g member).1
  · exact roles ▸ (steps g member).2.1
  · rw [roles, (steps g member).2.2]
    simp

/-- An operator is put between its operands. If it has none, its parentheses are empty. -/
theorem apply_operand {kind : Kind} {spec : FunctionSpec} (leads : spec.Leads v)
    (writes : spec.WritesArguments) {ok : Node → Prop} {args : List Node} {f : Node → Result Sql}
    (h : ∀ x ∈ args, Operand v (ok x) (f x)) :
    Operand v (¬ (args = [] ∧ spec.style = .operator ∧ spec.arity < 0) ∧ ∀ x ∈ args, ok x)
      (apply d kind spec (args.map f)) := by
  intro s whole
  have count := apply_arity whole
  rw [List.length_map] at count
  unfold FunctionSpec.Leads at leads
  rcases apply_eq_ok whole with ⟨style, rfl⟩ | ⟨arg, rest, style, given, rfl⟩ |
    ⟨parts, style, rendered, rfl⟩ | ⟨parts, style, rendered, rfl⟩
  · simp only [style] at leads
    have arity := writes.1 style
    obtain rfl : args = [] := List.eq_nil_of_length_eq_zero (by omega)
    exact (Sql.Reaches.ofText leads).congr (by simp [style])
  · simp only [style] at leads
    have arity := writes.2 style
    obtain ⟨x, rfl⟩ : ∃ x, args = [x] := List.length_eq_one_iff.mp (by omega)
    obtain ⟨same, -⟩ := List.cons.inj given
    have operand := h x (by simp) arg same
    exact ((Sql.Reaches.behind leads operand (by decide)).const _ [.ended] (by decide)).congr
      (by simp [style])
  · simp only [style] at leads
    by_cases empty : args = []
    -- an operator that needs a number of operands is not written without any
    · subst empty
      obtain rfl : parts = [] := by simpa [eq_comm] using rendered
      have variadic : spec.arity < 0 := by
        by_contra fixed
        exact leads.1 (count (by omega)).symm
      exact parens_nil.congr (by simp [style, variadic])
    · have between : v.leads [.ended] (" " ++ spec.name ++ " ") Gap.beginnings :=
        Vocabulary.leads_weaken leads.2 (List.Subset.refl _) (by decide)
      have list := Sql.Reaches.joinWith _ between empty (Ensures.each h rendered)
      exact (list.parens (by decide)).congr (by simp [empty])
  · have called : v.leads Gap.beginnings (spec.name ++ "(") [.called] := by
      rcases style with style | ⟨code, style⟩ <;> simpa only [style] using leads
    have call : spec.style ≠ .operator := by
      rcases style with style | ⟨code, style⟩ <;> simp [style]
    have list : (joinWith ", " parts).Reaches v [.called] [.called, .ended] (∀ x ∈ args, ok x) :=
      .list ", " (by decide) (Ensures.each h rendered) (by decide)
    exact ((Sql.Reaches.behind called list (by decide)).const _ [.ended] (by decide)).congr
      (by simp [call])

theorem function_operand (fits : d.Fits) (lossless : d.Lossless) (name : String)
    {args : List Node} {f : Node → Result Sql} {ok : Node → Prop}
    (h : ∀ x ∈ args, Operand d.profile.vocabulary (ok x) (f x)) :
    Operand d.profile.vocabulary (¬ (Node.function name args).LacksOperands d ∧ ∀ x ∈ args, ok x)
      (function d name (args.map f)) := by
  intro s whole
  obtain ⟨spec, found, rendered⟩ := function_eq_ok.mp whole
  have applied := apply_operand (fits.function_leads found) (lossless.functions.get? found) h s
    rendered
  exact applied.congr (by simp [Node.LacksOperands, found])

theorem regexpLike_operand (fits : d.Fits) (lossless : d.Lossless) {expr pattern : Node}
    {f : Node → Result Sql} {ok : Node → Prop}
    (h : ∀ x ∈ [expr, pattern], Operand d.profile.vocabulary (ok x) (f x)) :
    Operand d.profile.vocabulary (∀ x ∈ [expr, pattern], ok x)
      (regexpLike d (f expr) (f pattern)) := by
  intro s whole
  have leads := fits.spec_leads (List.mem_cons_self ..)
  have applied := apply_operand leads lossless.regexp h s (regexpLike_eq_ok.mp whole).2
  exact applied.congr (by simp)

theorem branch_reaches {P Q : Prop} (basis : Option Sql) (simple : d.has .simpleCase)
    {condition result : Result Sql} (hc : Operand v P condition) (hr : Operand v Q result) :
    Ensures (Sql.Reaches v [.free, .ended] [.ended] (P ∧ Q)) (branch d basis condition result) := by
  intro s whole
  obtain ⟨c, r, conditionRendered, resultRendered, rfl⟩ := branch_eq_ok.mp whole
  have same : branchCondition d basis c = c := by
    unfold branchCondition
    split <;> simp [simple]
  rw [same]
  have asked : (raw " WHEN " ++ c).Reaches v [.free, .ended] [.ended] P :=
    .lead [.needed] (by decide) (hc c conditionRendered) (by decide)
  exact (asked.const _ [.needed] (by decide)).append (hr r resultRendered) (by decide)

theorem case_operand (simple : d.has .simpleCase) {basis otherwise : Option Node}
    {branches : List (Branch Node)} (nonempty : branches ≠ []) {f g : Node → Result Sql}
    {ok : Node → Prop} (hb : ∀ x ∈ basis, Operand v (ok x) (f x))
    (hp : ∀ b ∈ branches, Operand v (ok b.condition) (g b.condition) ∧
      Operand v (ok b.result) (f b.result))
    (he : ∀ x ∈ otherwise, Operand v (ok x) (f x)) :
    Operand v (((∀ x ∈ basis, ok x) ∧ ∀ b ∈ branches, ok b.condition ∧ ok b.result) ∧
        ∀ x ∈ otherwise, ok x)
      (case d (basis.map f) (branches.map fun b => (g b.condition, f b.result))
        (otherwise.map f)) := by
  intro s whole
  obtain ⟨b, parts, e, basisRendered, rendered, otherwiseRendered, rfl⟩ := case_eq_ok.mp whole
  rw [if_pos simple]
  have head : (raw "CASE" ++ clause " " b).Reaches v Gap.beginnings [.free, .ended]
      (∀ x ∈ basis, ok x) := by
    have keyword : (raw "CASE").Reaches v Gap.beginnings [.free] True := .ofConst _ (by decide)
    cases Ensures.given hb basisRendered with
    | none =>
      simp only [clause, List.append_nil]
      exact (keyword.weaken (List.Subset.refl _) (by decide)).congr (by simp)
    | @some x t first =>
      have spaced : (raw " " ++ t).Reaches v [.free] [.ended] (ok x) :=
        .lead [.free] (by decide) first (by decide)
      have given := keyword.append spaced (by decide)
      exact (given.weaken (List.Subset.refl _) (by decide)).congr (by simp)
  rw [List.map_map] at rendered
  have each := Ensures.each (fun x member =>
    branch_reaches b simple (hp x member).1 (hp x member).2) rendered
  have listed := head.append (Sql.Reaches.flatten (by decide) nonempty each) (by decide)
  have closed := listed.clause " ELSE " [.needed] (by decide)
    (Ensures.given he otherwiseRendered) (by decide)
  exact closed.const _ [.ended] (by decide)

theorem extract_operand {P : Prop} {part : DatePart} (known : ∀ name, part ≠ .other name)
    {arg : Result Sql} (h : Operand v P arg) : Operand v P (extract d part arg) := by
  intro s whole
  obtain ⟨a, rendered, rfl | rfl | ⟨format, type, format?, rfl⟩⟩ := extract_eq_ok whole
  · have opens : leadsAlways Gap.beginnings ("EXTRACT(" ++ part.name ++ " FROM ") [.needed] := by
      cases part with
      | other name => exact absurd rfl (known name)
      | _ => decide +kernel
    exact (Sql.Reaches.lead _ opens (h a rendered) (by decide)).const _ [.ended] (by decide)
  · have opens : leadsAlways Gap.beginnings ("DATEPART(" ++ part.name ++ ", ") [.needed] := by
      cases part with
      | other name => exact absurd rfl (known name)
      | _ => decide +kernel
    exact (Sql.Reaches.lead _ opens (h a rendered) (by decide)).const _ [.ended] (by decide)
  · have closes : leadsAlways [.ended] (") AS " ++ type ++ ")") [.ended] := by
      cases part <;> cases format? <;> decide
    have opened : Sql.Reaches v Gap.beginnings [.ended] True
        (raw "CAST(STRFTIME(" ++ [Fragment.text format]) :=
      (Sql.Reaches.ofConst [.opened] (by decide)).string format (by decide)
    have listed := (opened.const ", " [.needed] (by decide)).append (h a rendered) (by decide)
    exact (listed.const _ _ closes).congr (by simp)

theorem cast_operand {P : Prop} (types : d.profile.types.Forall (·.fits)) {type : DataType}
    {arg : Result Sql} (h : Operand v P arg) : Operand v P (cast d type arg) := by
  intro s whole
  obtain ⟨name, a, named, rendered, rfl⟩ := cast_eq_ok.mp whole
  have spelled : v.leads [.needed] name [.ended] := typeName_leads types named
  split
  · exact ((h a rendered).parens (by decide)).text
      (Vocabulary.leads_const_append [.needed] (by decide) spelled (by decide) (by decide))
  · have behind : v.leads [.ended] (" AS " ++ name ++ ")") [.ended] :=
      Vocabulary.leads_append
        (Vocabulary.leads_const_append [.needed] (by decide) spelled (by decide) (by decide))
        (Vocabulary.leads_of_always (by decide)) (.inr (by decide))
    exact (Sql.Reaches.lead [.opened] (by decide) (h a rendered) (by decide)).text behind

end

end Render

end Pushdown

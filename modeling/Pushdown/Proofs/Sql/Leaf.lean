import Pushdown.Proofs.Dialect.Readable
import Pushdown.Proofs.Sql.Numeral
import Pushdown.Proofs.Syntax.WellFormed

/-!
# Names and constants as phrases

The parts of a statement that hold no other parts are phrases in every readable dialect. Columns
and constants are values: they have at least one token and nothing at their top level that groups
conditions.
-/

namespace Pushdown

/-- What stands where a value is expected. -/
structure IsValue (p : Profile) (quoteNames : Bool) (s : Sql) : Prop where
  phrase : Phrase p quoteNames true s
  nonempty : s.tokens p quoteNames ≠ []

/-- A value may stand where a condition is expected. -/
theorem IsValue.condition {p : Profile} {quoteNames : Bool} {s : Sql}
    (h : IsValue p quoteNames s) : Phrase p quoteNames false s := h.phrase.unquiet

/-- A value that does not begin with a parenthesis. -/
structure IsTerm (p : Profile) (quoteNames : Bool) (s : Sql) : Prop
    extends IsValue p quoteNames s where
  bare : beginsBare (s.tokens p quoteNames)

namespace IsTerm

variable {p : Profile} {quoteNames : Bool} {s : Sql}

theorem ofName {a : String} (phrase : Phrase p quoteNames true (.name a :: s)) :
    IsTerm p quoteNames (.name a :: s) := by
  refine ⟨⟨phrase, by simp [Fragment.tokens]⟩, ?_⟩
  simp only [Sql.tokens_cons, Fragment.tokens, List.singleton_append, beginsBare, List.head?_cons]
  split <;> rfl

theorem ofRaw {text : String} (phrase : Phrase p quoteNames true (.raw text :: s))
    (named : isNamed text) : IsTerm p quoteNames (.raw text :: s) := by
  rw [isNamed, Bool.and_eq_true, bne_iff_ne] at named
  obtain ⟨nonempty, bare⟩ := named
  refine ⟨⟨phrase, by simp [Fragment.tokens, nonempty]⟩, ?_⟩
  obtain ⟨t, rest, tokens⟩ := List.exists_cons_of_ne_nil nonempty
  rw [tokens] at bare
  simpa [Fragment.tokens, tokens, beginsBare] using bare

end IsTerm

/-! ## Templates -/

namespace Text

theorem layout_plain (value : List Char) : Layout.plain {} value = value := by
  simp [Layout.plain, Layout.fill, Layout.cut]

/-- A template with one place for a text. -/
theorem fillTemplate_once {front back : List Char} (once : '%' ∉ front ∧ '%' ∉ back)
    (value : List Char) :
    fillTemplate (front ++ '%' :: 's' :: back) value =
      [TemplatePart.copied front, .whole, .copied back].filter (· ≠ .copied []) := by
  have before : ∀ c ∈ front, (c != '%') = true := by
    intro c member
    rw [bne_iff_ne]
    rintro rfl
    exact once.1 member
  have after : ∀ c ∈ back, (c != '%') = true := by
    intro c member
    rw [bne_iff_ne]
    rintro rfl
    exact once.2 member
  have read : Directive.read { rest := 's' :: back, taken := false, named := false } =
      { rest := 's' :: back, taken := false, named := false } := by
    simp [Directive.read, Directive.flags, Directive.flag?, Directive.name, Directive.width,
      Directive.precision, Directive.number, Directive.numberFrom]
  have kept : back.takeWhile (· != '%') = back := by
    have all : (back ++ []).takeWhile (· != '%') = back ++ [].takeWhile (· != '%') :=
      List.takeWhile_append_of_pos after
    simpa using all
  have gone : back.dropWhile (· != '%') = [] := by
    have all : (back ++ []).dropWhile (· != '%') = [].dropWhile (· != '%') :=
      List.dropWhile_append_of_pos after
    simpa using all
  have rest (limit : Nat) : fillUpTo value (limit + 1) true false back = [.copied back] := by
    simp [fillUpTo, kept, gone, untaken]
  have front_kept : (front ++ '%' :: 's' :: back).takeWhile (· != '%') = front := by
    simp [List.takeWhile_append_of_pos before]
  have front_gone : (front ++ '%' :: 's' :: back).dropWhile (· != '%') = '%' :: 's' :: back := by
    simp [List.dropWhile_append_of_pos before]
  have length : (front ++ '%' :: 's' :: back).length = front.length + back.length + 1 + 1 := by
    simp [Nat.add_assoc]
  rw [fillTemplate, length, fillUpTo]
  simp only [front_kept, front_gone, read]
  simp [Layout.write, layout_plain, TemplatePart.ofText, rest, TemplatePart.ofString,
    List.filter_cons]

end Text

/-- A text that stands in a statement only if there is one. -/
def Sql.rawUnlessEmpty (text : String) : Sql := if text = "" then [] else raw text

theorem Sql.fill_once (p : Profile) {template front back : String}
    (parts : template = front ++ "%s" ++ back) (once : '%' ∉ front.toList ∧ '%' ∉ back.toList)
    (value : String) : Sql.fill p template value =
      rawUnlessEmpty front ++ [Fragment.text value] ++ rawUnlessEmpty back := by
  have chars : template.toList = front.toList ++ '%' :: 's' :: back.toList := by
    simp [parts]
  have empty (s : String) : s.toList = [] ↔ s = "" := by simp
  rw [Sql.fill, chars, Text.fillTemplate_once once]
  by_cases noFront : front = "" <;> by_cases noBack : back = "" <;>
    simp [rawUnlessEmpty, raw, noFront, noBack]

theorem Sql.fill_of_isTemplate {p : Profile} {template front : String} {opened : List Bracket}
    {back : String} (h : IsTemplate p template front opened back) (value : String) :
    Sql.fill p template value =
      rawUnlessEmpty front ++ [Fragment.text value] ++ rawUnlessEmpty back := fill_once p h.parts h.once value

namespace Draft

variable {p : Profile} {quoteNames quiet : Bool} {before middle after : List Bracket}
  {start : Ending} {s : Sql}

/-- Add a text that may be missing. -/
theorem rawUnlessEmpty (marks : Lexer.HasMarks p)
    (h : Draft p quoteNames quiet before middle start s) {text : String}
    (plain : IsPlainText p text)
    (meets : start = .apart ∨ Lexer.startsApart text.toList)
    (nested : nest quiet middle (Lexer.plainTokens text.toList) = some after) :
    Draft p quoteNames quiet before after .within (s ++ Sql.rawUnlessEmpty text) := by
  by_cases missing : text = ""
  · subst missing
    obtain rfl : middle = after := by
      simpa [Lexer.plainTokens, Lexer.Pending.run, Lexer.Pending.tokens, nest] using nested
    simpa [Sql.rawUnlessEmpty] using h.weaken
  · rw [Sql.rawUnlessEmpty, if_neg missing]
    exact h.raw marks plain (meets.imp_right fun apart => ⟨missing, apart⟩) nested (.inl rfl)

end Draft

/-! ## Names -/

namespace Render

variable {d : Dialect} {ctx : Context} {quoteNames quiet : Bool} {before : List Bracket}

theorem tableName_draft (legible : d.profile.Legible) (name : String) :
    Draft d.profile quoteNames quiet before before .name (tableName d ctx name) := by
  unfold tableName
  by_cases catalog : d.profile.qualifyCatalog && ctx.catalog != "" <;>
    by_cases schema : d.profile.qualifySchema && ctx.schema != "" <;>
      simp only [catalog, schema, if_true, Bool.false_eq_true, if_false]
  · exact ((Draft.ofName legible ctx.catalog).dot legible ctx.schema).dot legible name
  · exact (Draft.ofName legible ctx.catalog).dot legible name
  · exact (Draft.ofName legible ctx.schema).dot legible name
  · exact Draft.ofName legible name

theorem tableName_starts (d : Dialect) (ctx : Context) (name : String) :
    ∃ a rest, tableName d ctx name = .name a :: rest := by
  unfold tableName
  by_cases catalog : d.profile.qualifyCatalog && ctx.catalog != "" <;>
    by_cases schema : d.profile.qualifySchema && ctx.schema != "" <;>
      simp only [catalog, schema, if_true, Bool.false_eq_true, if_false]
  all_goals exact ⟨_, _, rfl⟩

theorem tableAlias_draft (legible : d.profile.Legible) {ending : Ending} {s : Sql}
    (h : Draft d.profile quoteNames quiet [] [] ending s) (aliasName : String) :
    Phrase d.profile quoteNames quiet (s ++ tableAlias d aliasName) := by
  unfold tableAlias
  rw [← List.append_assoc]
  split
  · exact ((h.weaken.const legible.marks [] .apart (by cases quiet <;> decide)).name legible
      aliasName).weaken
  · exact ((h.weaken.const legible.marks [] .apart (by cases quiet <;> decide)).name legible
      aliasName).weaken

theorem table_phrase (legible : d.profile.Legible) (t : Table) :
    Phrase d.profile quoteNames quiet (table d ctx t) := by
  unfold table
  split
  · simpa using (tableName_draft legible t.name).weaken
  · exact tableAlias_draft legible (tableName_draft legible t.name) t.aliasName

theorem column_term (legible : d.profile.Legible) (c : Column) :
    IsTerm d.profile quoteNames (column d ctx c) := by
  unfold column
  split
  · exact .ofName ((Draft.ofName legible c.aliasName).dot legible c.name).weaken
  · split
    · have phrase : Phrase d.profile quoteNames true
          (tableName d ctx c.table ++ Sql.raw "." ++ [Fragment.name c.name]) :=
        ((tableName_draft legible c.table).dot legible c.name).weaken
      obtain ⟨a, rest, starts⟩ := tableName_starts d ctx c.table
      rw [starts] at phrase ⊢
      exact .ofName phrase
    · exact .ofName (Draft.ofName legible c.name).weaken

theorem tableName_fragments (d : Dialect) (ctx : Context) (name : String) :
    ∀ f ∈ tableName d ctx name, (∃ a, f = .name a) ∨ f = .raw "." := by
  unfold tableName
  by_cases catalog : d.profile.qualifyCatalog && ctx.catalog != "" <;>
    by_cases schema : d.profile.qualifySchema && ctx.schema != "" <;>
      simp [catalog, schema, Sql.joinWith, List.intersperse, Sql.raw]

theorem column_fragments (d : Dialect) (ctx : Context) (c : Column) :
    ∀ f ∈ column d ctx c, (∃ a, f = .name a) ∨ f = .raw "." := by
  have table := tableName_fragments d ctx c.table
  unfold column
  split
  · simp [Sql.raw]
  · split
    · intro f member
      simp only [Sql.raw, List.append_assoc, List.mem_append, List.mem_singleton] at member
      rcases member with member | rfl | rfl
      · exact table f member
      · exact .inr rfl
      · exact .inl ⟨_, rfl⟩
    · simp

section

variable {p : Profile} {s : Sql}

/-- Names with points between them consist of parts of names. -/
theorem isNamePart_of_fragments (names : ∀ f ∈ s, (∃ a, f = .name a) ∨ f = .raw ".") :
    ∀ t ∈ s.tokens p quoteNames, IsNamePart p t := by
  intro t member
  obtain ⟨f, listed, inside⟩ := List.mem_flatMap.mp member
  rcases names f listed with ⟨a, rfl⟩ | rfl
  · exact IsNamePart.ofName a t inside
  · have point : Lexer.plainTokens ".".toList = [.symbol '.'] := by decide
    rw [Fragment.tokens, point, List.mem_singleton] at inside
    rw [inside]
    rfl

theorem tableName_isNamePart (d : Dialect) (ctx : Context) (name : String) :
    ∀ t ∈ (tableName d ctx name).tokens p quoteNames, IsNamePart p t :=
  isNamePart_of_fragments (tableName_fragments d ctx name)

theorem column_isNamePart (d : Dialect) (ctx : Context) (c : Column) :
    ∀ t ∈ (column d ctx c).tokens p quoteNames, IsNamePart p t :=
  isNamePart_of_fragments (column_fragments d ctx c)

end

/-! ## Constants -/

/-- A text constant in its template. -/
theorem fill_term {p : Profile} (marks : Lexer.HasMarks p) {template front : String}
    {opened : List Bracket} {back : String} (h : IsTemplate p template front opened back)
    (value : String) : IsTerm p quoteNames (Sql.fill p template value) := by
  rw [Sql.fill_of_isTemplate h]
  have opening : Draft p quoteNames true [] opened .apart (Sql.rawUnlessEmpty front) := by
    by_cases missing : front = ""
    · subst missing
      have nested := h.leads.nested
      obtain rfl : [] = opened := by
        simpa [Lexer.plainTokens, Lexer.Pending.run, Lexer.Pending.tokens, nest] using nested
      exact Draft.nil
    · rw [Sql.rawUnlessEmpty, if_neg missing]
      exact .ofText h.leads.plain h.leads.nested (.inr ⟨rfl, h.leads.idle⟩)
  refine ⟨⟨(opening.text marks value).rawUnlessEmpty marks h.plain (.inr h.apart) h.nested,
    by simp [Fragment.tokens]⟩, ?_⟩
  have bare := h.named
  by_cases missing : front = ""
  · simp [Sql.rawUnlessEmpty, missing, Fragment.tokens, beginsBare]
  · simp only [Sql.rawUnlessEmpty, if_neg missing, Sql.raw, Sql.tokens_append, Sql.tokens_cons,
      Sql.tokens_nil, Fragment.tokens, List.append_nil, List.append_assoc] at bare ⊢
    cases tokens : Lexer.plainTokens front.toList with
    | nil => simp [beginsBare]
    | cons t rest =>
      rw [tokens] at bare
      simpa [beginsBare] using bare

theorem numeral_term {p : Profile} (marks : Lexer.HasMarks p) {text : String}
    (h : IsNumeral text) : IsTerm p quoteNames (Sql.raw text) := by
  refine .ofRaw (h.phrase marks quoteNames true) ?_
  obtain ⟨signs, body, tokens, sign⟩ := h.tokens
  rw [isNamed, tokens]
  rcases sign with rfl | rfl | rfl <;> rfl

/-- A constant word or number. -/
theorem const_term {p : Profile} (marks : Lexer.HasMarks p) {text : String}
    (step : isStep true [] .apart text [] .within && isNamed text) :
    IsTerm p quoteNames (Sql.raw text) := by
  rw [Bool.and_eq_true] at step
  exact .ofRaw (Draft.ofConst marks [] .within step.1) step.2

/-- Every constant that follows its format is a value. -/
theorem literal_term (readable : d.Readable) {l : Literal} (format : l.KeepsFormat) {s : Sql}
    (h : literal d l = .ok s) : IsTerm d.profile quoteNames s := by
  have marks := readable.legible.marks
  unfold literal at h
  unfold Literal.KeepsFormat at format
  cases type : l.type <;> simp only [type] at h format
  case null =>
    cases h
    exact const_term marks (by decide)
  case bool =>
    split at h
    · cases h
      rcases format with value | value
      · rw [value]
        exact const_term marks (by decide)
      · rw [value]
        exact const_term marks (by decide)
    · cases h
      split
      · exact const_term marks (by decide)
      · exact const_term marks (by decide)
  case exactNumeric =>
    cases h
    exact numeral_term marks (.of_isExactNumeric format)
  case double =>
    cases h
    exact numeral_term marks (.of_isFiniteDouble format)
  case string =>
    cases h
    exact ⟨⟨Draft.nil.text marks l.value, by simp [Fragment.tokens]⟩, rfl⟩
  case date =>
    cases h
    obtain ⟨front, opened, back, template⟩ := readable.dates
    exact fill_term marks template l.value
  case timestamp | timestampUtc =>
    cases h
    obtain ⟨front, opened, back, template⟩ := readable.timestamps
    exact fill_term marks template l.value
  case interval =>
    simp only [bind_eq_ok, require_eq_ok, pure_eq_ok] at h
    obtain ⟨-, -, rfl⟩ := h
    have value : Draft d.profile quoteNames true [] [] .within
        (Sql.raw "INTERVAL " ++ [Fragment.text l.value]) :=
      (Draft.ofConst marks [] .apart (by decide)).text marks l.value
    refine .ofRaw ?_ (by decide)
    cases range : l.interval.range
    · exact value.const marks [] .within (by decide)
    · exact value.const marks [] .within (by decide)
    · simp [range, IntervalRange.isKnown] at format

end Render

/-! ## Texts from numbers and tables -/

namespace IsPart

variable {p : Profile} {quiet : Bool} {before middle after : List Bracket} {a b : String}

/-- A constant text that stands apart at its end, with another text behind it. -/
theorem lead (marks : Lexer.HasMarks p) (middle : List Bracket)
    (step : isStep quiet before .apart a middle .apart) (next : IsPart p quiet middle b after) :
    IsPart p quiet before (a ++ b) after := by
  simp only [isStep, Bool.and_eq_true, Bool.or_eq_true, beq_iff_eq, bne_iff_ne] at step
  obtain ⟨⟨⟨⟨plain, -⟩, -⟩, nested⟩, ends⟩ := step
  have idle : Lexer.endsIdle a.toList := by
    rcases ends with absurdity | ⟨-, idle⟩
    · contradiction
    · exact idle
  exact append ⟨.of marks (by simp) plain, nested⟩ next (.inl idle)

theorem number (marks : Lexer.HasMarks p) (n : Int) : IsPart p quiet before (toString n) before :=
  have numeral := IsNumeral.toString_int n
  ⟨numeral.plain marks, numeral.nested quiet before⟩

/-- A number with a text behind it that starts apart. -/
theorem numberThen (marks : Lexer.HasMarks p) (n : Int) (next : IsPart p quiet before a after)
    (apart : Lexer.startsApart a.toList) : IsPart p quiet before (toString n ++ a) after :=
  append (number marks n) next (.inr apart)

end IsPart

namespace Render

theorem limitText_isText {p : Profile} (marks : Lexer.HasMarks p) (style : LimitStyle)
    (l : Limit) : IsText p false (limitText style l) := by
  have rows : IsText p false (toString l.count ++ " ROWS ONLY") :=
    .numberThen marks _ (.const marks (by decide)) (by decide)
  have skip : IsText p false
      (toString l.offset ++ (" ROWS FETCH FIRST " ++ (toString l.count ++ " ROWS ONLY"))) :=
    .numberThen marks _ (.lead marks [] (by decide) rows) (Lexer.startsApart_append (by decide))
  have both : IsText p false (toString l.count ++ (" OFFSET " ++ toString l.offset)) :=
    .numberThen marks _ (.lead marks [] (by decide) (.number marks _))
      (Lexer.startsApart_append (by decide))
  unfold limitText
  split
  · exact .lead marks [] (by decide) (.number marks _)
  · split
    · simp only [String.append_assoc]
      exact .lead marks [] (by decide) skip
    · simp only [String.append_assoc]
      exact .lead marks [] (by decide) rows
  all_goals
    split
    · simp only [String.append_assoc]
      exact .lead marks [] (by decide) both
    · exact .lead marks [] (by decide) (.number marks _)

theorem typeName_isText {d : Dialect} (readable : d.Readable) {type : DataType} {name : String}
    (h : d.profile.typeName? type = some name) : IsText d.profile true name := by
  have marks := readable.legible.marks
  simp only [Profile.typeName?, Option.bind_eq_bind, Option.bind_eq_some_iff] at h
  obtain ⟨spec, found, h⟩ := h
  obtain ⟨plain, zoned⟩ := readable.types.get? found
  have last (n : Int) : IsPart d.profile true [.paren] (toString n ++ ")") [] :=
    .numberThen marks n (.const marks (by decide)) (by decide)
  have one (n : Int) : IsText d.profile true (spec.name ++ ("(" ++ (toString n ++ ")"))) :=
    .append plain (.lead marks [.paren] (by decide) (last n))
      (.inr (Lexer.startsApart_append (by decide)))
  have two (n m : Int) : IsText d.profile true
      (spec.name ++ ("(" ++ (toString n ++ (", " ++ (toString m ++ ")"))))) := by
    refine .append plain (.lead marks [.paren] (by decide) ?_)
      (.inr (Lexer.startsApart_append (by decide)))
    exact .numberThen marks n (.lead marks [.paren] (by decide) (last m))
      (Lexer.startsApart_append (by decide))
  have range (r : IntervalRange) : IsText d.profile true (spec.name ++ (" " ++ r.qualifier)) := by
    have qualifier : r.qualifier = "DAY TO SECOND" ∨ r.qualifier = "YEAR TO MONTH" := by
      cases r <;> simp [IntervalRange.qualifier]
    refine .append plain (.lead marks [] (by decide) ?_)
      (.inr (Lexer.startsApart_append (by decide)))
    rcases qualifier with same | same <;> rw [same] <;> exact .const marks (by decide)
  split at h
  · split at h
    · contradiction
    · exact Option.some.inj h ▸ zoned
  · split at h
    · exact Option.some.inj h ▸ plain
    · split at h <;> cases h
      · simp only [String.append_assoc]
        exact two type.precision type.scale
      · simp only [String.append_assoc]
        exact one type.size
      · simp only [String.append_assoc]
        exact one type.size
      · simp only [String.append_assoc]
        exact range type.range
      · exact plain

theorem frameBound_isText {p : Profile} (marks : Lexer.HasMarks p) (b : FrameBound) :
    IsText p false (frameBound b) := by
  unfold frameBound
  split
  · exact .const marks (by decide)
  · exact .numberThen marks _ (.const marks (by decide)) (by decide)
  · exact .const marks (by decide)
  · exact .numberThen marks _ (.const marks (by decide)) (by decide)
  all_goals exact .const marks (by decide)

theorem units_of_checkFrame {f : Frame} (checked : Build.checkFrame f = .ok ()) :
    f.units.name = "ROWS" ∨ f.units.name = "RANGE" := by
  cases units : f.units with
  | rows => exact .inl rfl
  | range => exact .inr rfl
  | other name =>
    simp only [Build.checkFrame, units] at checked
    exact absurd checked Build.fail_ne_ok

theorem frame_isText {p : Profile} (marks : Lexer.HasMarks p) {f : Frame}
    (checked : Build.checkFrame f = .ok ()) : IsText p false (frame f) := by
  have units := units_of_checkFrame checked
  have lead {text : String} (h : IsText p false text) :
      IsText p false (f.units.name ++ " " ++ text) := by
    rcases units with same | same <;> rw [same]
    · exact .lead marks [] (by decide) h
    · exact .lead marks [] (by decide) h
  unfold frame
  split
  · exact lead (frameBound_isText marks f.start)
  · rename_i stop _
    refine lead ?_
    simp only [String.append_assoc]
    refine .lead marks [] (by decide) (.append (frameBound_isText marks f.start) ?_
      (.inr (Lexer.startsApart_append (by decide))))
    exact .lead marks [] (by decide) (frameBound_isText marks stop)

/-- The texts of sort directions. -/
def directions : List String :=
  ["", " ASC", " DESC"].flatMap fun order =>
    ["", " NULLS LAST", " NULLS FIRST"].map fun nulls => order ++ nulls

theorem direction_mem (d : Dialect) (ascending nullsLast : Bool) :
    direction d ascending nullsLast ∈ directions := by
  unfold direction
  split <;> split <;> try split
  all_goals (try split) <;> decide

end Render

end Pushdown
